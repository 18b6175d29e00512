import SessionGate.Text.Blank

/-!
Requests and responses, as far as the service looks at them. Header names are in lower case; of
several values under one name the first counts.
-/

namespace SessionGate.Http

abbrev Headers := List (String × String)

structure Request where
  method : String
  target : String
  headers : Headers
  body : List UInt8

structure Response where
  status : Nat
  contentType : Option String
  allow : Option String
  body : String
deriving DecidableEq, Repr

def header? (headers : Headers) (name : String) : Option String :=
  headers.lookup name

/-- Printing ASCII, blanks and tabs: what a value may hold to be read as text. -/
def isVisible (text : String) : Bool :=
  text.toList.all fun c => (0x20 ≤ c.toNat && c.toNat < 0x7f) || c == '\t'

def isValue (text : String) : Bool :=
  text.toList.all fun c => (0x20 ≤ c.toNat && c.toNat != 0x7f) || c == '\t'

/-- Characters of names and of the parts of media types. -/
def isTokenChar (c : Char) : Bool :=
  c.isAlphanum || "!#$%&'*+-.^_|~".toList.contains c || c.toNat == 0x60

def isName (text : String) : Bool := text ≠ "" && text.toList.all isTokenChar

def lowerName (text : String) : String := String.ofList (text.toList.map Char.toLower)

namespace Response

def plain : String := "text/plain; charset=utf-8"

def empty (status : Nat) : Response := { status, contentType := none, allow := none, body := "" }

def text (status : Nat) (body : String) : Response :=
  { status, contentType := some plain, allow := none, body }

def json (status : Nat) (body : String) : Response :=
  { status, contentType := some "application/json", allow := none, body }

end Response

end SessionGate.Http
