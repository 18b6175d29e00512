import SessionGate.Directory.Table
import SessionGate.Main
import SessionGate.Proofs.Service.Persist
import SessionGate.Proofs.Service.Source
import SessionGate.Proofs.Setup.Saving
import SessionGate.Proofs.Token.Names
import SessionGate.Proofs.Token.Rotation
import SessionGate.Proofs.Traffic.Admission
import SessionGate.Proofs.Traffic.Events
import SessionGate.Proofs.Traffic.Probing
import SessionGate.Proofs.Traffic.Secrecy
import SessionGate.Redis.Server
import SessionGate.Service.World
import SessionGate.Session.Redis
import SessionGate.Proofs.Token.Diagnosis
import SessionGate.Proofs.Redis.Server
import SessionGate.Proofs.Session.Agreement
import SessionGate.Proofs.Redis.Interleaving
import SessionGate.Proofs.Toml.Raw
import SessionGate.Proofs.Toml.Line
import SessionGate.Proofs.Toml.Lasting
import SessionGate.Proofs.Config.Filling
import SessionGate.Proofs.Config.Starting
import SessionGate.Proofs.Setup.Starting
import SessionGate.Proofs.Token.Tampering
import SessionGate.Proofs.Setup.Publication
import SessionGate.Proofs.Session.Lifetime
import SessionGate.Proofs.Setup.Leeway
import SessionGate.Proofs.Session.Fields
import SessionGate.Proofs.Service.Lifespan
import SessionGate.Proofs.Service.Assertion
import SessionGate.Proofs.Config.Cut
import SessionGate.Proofs.Directory.Accounts
import SessionGate.Proofs.Json.Records
import SessionGate.Proofs.Setup.Nearest
import SessionGate.Proofs.Command.Replacement
import SessionGate.Proofs.Command.Usable
import SessionGate.Proofs.Rsa.Generate
import SessionGate.Proofs.Setup.Seeding
