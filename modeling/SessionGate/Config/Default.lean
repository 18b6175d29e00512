import SessionGate.Config.Basic

/-!
The document that a new deployment starts from. Its secret and its store are taken from the
environment.
-/

namespace SessionGate.Config

def startingLines : List String := [
  "# authgate configuration",
  "",
  "[server]",
  "host = \"0.0.0.0\"",
  "port = 8080",
  "# cors_origins = [\"http://localhost:3000\"]",
  "",
  "[token]",
  "# \"shared_secret\" (HS256) or \"asymmetric\" (RS256 + JWKS)",
  "mode = \"shared_secret\"",
  "secret = \"$\x7bAUTH_SECRET_KEY\x7d\"",
  "# private_key_path = \"./keys/private.pem\"",
  "# key_id = \"$\x7bJWK_KEY_ID:-primary\x7d\"",
  "# issuer = \"$\x7bJWT_ISSUER_CLAIM\x7d\"",
  "# audience = \"$\x7bJWT_AUDIENCE_CLAIM\x7d\"",
  "leeway_seconds = 0",
  "",
  "# Keys rotated out of signing that must still verify outstanding tokens",
  "# [[token.retired_keys]]",
  "# key_id = \"2024-01\"",
  "# public_key_path = \"./keys/2024-01.pub.pem\"",
  "",
  "[sessions]",
  "backend = \"memory\"  # or \"redis\"",
  "redis_url = \"$\x7bREDIS_URL:-redis://127.0.0.1:6379\x7d\"",
  "accept_legacy_sessions = true",
  "",
  "[users]",
  "backend = \"static\"  # or \"postgres\"",
  "# postgres = \"host=localhost user=postgres password=postgres dbname=app\"",
  "",
  "# [[users.accounts]]",
  "# id = 1",
  "# name = \"Admin\"",
  "# email = \"admin@example.com\"",
  "# password_hash = \"$2b$12$...\"  # authgate hash-password",
  "# role = 1",
  "# subscription_status = \"ACTIVE\"",
  "",
  "[gateway]",
  "trust_userinfo_header = false",
  "userinfo_header = \"X-Apigateway-Api-Userinfo\"",
  "",
  "[policy]",
  "reveal_unknown_users = false"]

def startingText : String := String.join (startingLines.map fun line => line ++ "\n")

end SessionGate.Config
