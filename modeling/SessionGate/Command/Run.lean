import SessionGate.Command.Arguments
import SessionGate.Config.Default
import SessionGate.Password.Hash
import SessionGate.Setup.Start

/-!
What each command does to the system: lines it writes, files it makes, and the fault it ends with, if
any.
-/

namespace SessionGate.Command

inductive Failure
  | setup (fault : Setup.Fault)
  | file (fault : Host.FileFault)
  | emptyPassword
deriving DecidableEq, Repr

def Failure.message : Failure → String
  | setup fault => fault.message
  | file fault => fault.message
  | emptyPassword => "password must not be empty"

abbrev Run := ExceptT Failure (Program Host.Request)

def ask (r : Host.Request α) : Run α := ExceptT.lift (Program.perform r)

/-- A request on files whose fault ends the command. -/
def askFile (r : Host.Request (Except Host.FileFault α)) : Run α := do
  match ← ask r with
  | .ok a => return a
  | .error fault => throw (.file fault)

def success (text : String) : Run Unit := ask (.print ("✓ " ++ text))
def warn (text : String) : Run Unit := ask (.print ("⚠ " ++ text))
def info (text : String) : Run Unit := ask (.print ("ℹ " ++ text))
def complain (text : String) : Run Unit := ask (.complain ("✗ " ++ text))

def setup (t : Setup.Task α) : Run α := ExceptT.mk do
  return (← t.run).mapError .setup

def init : Run Unit := do
  if ← ask (.isThere Setup.fileName) then warn (Setup.fileName ++ " already exists")
  else
    askFile (.write Setup.fileName Config.startingText)
    success ("Created " ++ Setup.fileName)
    info ("Set token.secret (or generate a key with 'authgate keygen')"
      ++ " and run 'authgate serve'")

/-- Loads the configuration; a fault is told as well as returned. -/
def loadConfig (path : Option String) : Run Config := ExceptT.mk do
  match ← (Setup.load path).run with
  | .ok c => return .ok c
  | .error fault => do
    Program.perform (.complain ("✗ Failed to load config: " ++ fault.message))
    return .error (.setup fault)

def modeText : Config.SigningMode → String
  | .sharedSecret => "HS256 (shared secret)"
  | .asymmetric => "RS256 (asymmetric)"

def serverFailed (f : Failure) : Run Unit := do
  complain ("Server failed: " ++ f.message)
  throw f

def serve (path host : Option String) (port : Option UInt16) : Run Unit := do
  let c ← loadConfig path
  let address := host.getD c.server.host ++ ":" ++ Nat.repr (port.getD c.server.port).toNat
  info ("Signing mode: " ++ modeText c.tokens.mode)
  info ("Starting server at http://" ++ address)
  match ← ExceptT.lift (Setup.start c).run with
  | .error fault => serverFailed (.setup fault)
  | .ok _ => serverFailed (.setup (.file (← ask (.listen address))))

/-- The three files of a key pair in a directory. -/
structure KeyFiles where
  privatePath : String
  publicPath : String
  setPath : String

def KeyFiles.under (directory : String) : KeyFiles where
  privatePath := Host.joinPath directory "private.pem"
  publicPath := Host.joinPath directory "public.pem"
  setPath := Host.joinPath directory "jwks.json"

def KeyFiles.all (f : KeyFiles) : List String := [f.privatePath, f.publicPath, f.setPath]

/-- The first of some paths at which there is something. -/
def firstPresent : List String → Run (Option String)
  | [] => return none
  | path :: rest => do
    if ← ask (.isThere path) then return some path else firstPresent rest

def privateText (key : Rsa.PrivateKey) : String := key.toPem

def publicText (key : Rsa.PrivateKey) : String := key.toPublic.toPem

def setText (id : String) (key : Rsa.PrivateKey) : String :=
  let keys : Token.KeySet := { keys := [Token.PublishedKey.ofKey id key.toPublic] }
  keys.toJson.writeIndented

def writeKey (directory id : String) (key : Rsa.PrivateKey) : Run Unit := do
  let files := KeyFiles.under directory
  askFile (.makeDirectories directory)
  askFile (.write files.privatePath (privateText key))
  askFile (.restrict files.privatePath)
  askFile (.write files.publicPath (publicText key))
  askFile (.write files.setPath (setText id key))
  success ("Wrote " ++ files.privatePath)
  success ("Wrote " ++ files.publicPath)
  success ("Wrote " ++ files.setPath)
  info ("Set token.mode = \"asymmetric\", token.private_key_path = \"" ++ files.privatePath
    ++ "\" and token.key_id = \"" ++ id ++ "\"")
  info ("When rotating, list " ++ files.publicPath ++ " under token.retired_keys with key_id \""
    ++ id ++ "\"")

def keygen (directory id : String) (force : Bool) : Run Unit := do
  match ← firstPresent (KeyFiles.under directory).all, force with
  | some path, false => warn (path ++ " already exists (use --force to overwrite)")
  | _, _ =>
    info ("Generating " ++ Nat.repr Rsa.newBits ++ "-bit RSA key '" ++ id ++ "'")
    match ← ask .newKey with
    | none => throw (.setup (.key .notGenerated))
    | some key => writeKey directory id key

def jwks (path : Option String) : Run Unit := do
  let c ← loadConfig path
  let authority ← setup (Setup.authorityOf c.tokens)
  match authority.keySet? with
  | some keys => ask (.print keys.toJson.writeIndented)
  | none => warn "Shared-secret mode publishes no keys"

def withoutLineEnd (line : String) : String :=
  String.ofList (line.toList.reverse.dropWhile fun c => c == '\n' || c == '\r').reverse

def hashPassword (password : Option String) : Run Unit := do
  let password ← match password with
    | some password => pure password
    | none => withoutLineEnd <$> ask .inputLine
  if password = "" then throw .emptyPassword
  ask (.print (Password.hash password (← ask (.entropy 16))))

def run (a : Arguments) : Run Unit :=
  match a.action with
  | .init => init
  | .serve host port => serve a.config host port
  | .keygen directory id force => keygen directory id force
  | .jwks => jwks a.config
  | .hashPassword password => hashPassword password

def versionText : String := "authgate 0.1.0"

def helpText : String := "\n".intercalate [
  "Session-backed token authentication service",
  "",
  "Usage: authgate [-c FILE] COMMAND",
  "",
  "  init                                 write a configuration to start from",
  "  serve [--host HOST] [-p PORT]        answer requests over HTTP",
  "  keygen -k KEY_ID [-o DIRECTORY] [-f] make a signing key and its published form",
  "  jwks                                 print the published keys",
  "  hash-password [PASSWORD]             hash a password, or a line of the input"]

end SessionGate.Command
