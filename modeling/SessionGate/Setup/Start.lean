import SessionGate.Directory.Static
import SessionGate.Service.Sessions
import SessionGate.Http.Message
import SessionGate.Setup.Loading

/-!
Starting a service from its configuration: the authority first, then the store, the directory, and
last the header of a trusted gateway.
-/

namespace SessionGate.Setup

structure Started where
  deployment : Deployment
  directory : Directory

def reach (address : String) : Task Bool := ExceptT.lift (Program.perform (.reach address))

/-- A store on another server has to be within reach. -/
def openStore (s : Config.Sessions) : Task Unit :=
  match s.backend with
  | .memory => return
  | .redis => do
    if !(← reach s.redisUrl) then throw (.refused (.store .unavailable))

def openDirectory (u : Config.Users) : Task Directory :=
  match u.backend with
  | .static => return Directory.ofAccounts u.accounts
  | .postgres => do
    let some address := u.postgres | throw (.config .noPostgres)
    if !(← reach address) then throw (.refused (.directory .unavailable))
    return Directory.empty

def gatewayHeader (g : Config.Gateway) : Except Fault (Option String) :=
  if g.trustHeader then
    if Http.isName g.header then .ok (some (Http.lowerName g.header))
    else .error (.config .badGatewayHeader)
  else .ok none

def start (c : Config) : Task Started := do
  let authority ← authorityOf c.tokens
  openStore c.sessions
  let directory ← openDirectory c.users
  let header ← ExceptT.mk (pure (gatewayHeader c.gateway))
  return {
    deployment := {
      authority, gatewayHeader := header
      revealUnknownUsers := c.policy.revealUnknownUsers
      acceptLegacy := c.sessions.acceptLegacy }
    directory }

end SessionGate.Setup
