import Querent.Config.Basic
import Querent.Text.Split

/-!
# Configurations as URLs

The form is `nowdb://[user[:password]@]host[:port][/database]`. The database
begins after the first `/`, the host after the last `@` before it, the password
after the first `:` of the credentials and the port after the last `:` of the
host part.
-/

namespace Querent.Config

open Text

def scheme : String := "nowdb://"

/-- The user and the password of credentials. -/
def readCredentials (l : List Char) : String × Option String :=
  match splitFirst? ':' l with
  | some (user, password) => (String.ofList user, some (String.ofList password))
  | none => (String.ofList l, none)

/-- The host and the port. An empty host is the default. -/
def readAddress (l : List Char) : Except Error (String × UInt16) :=
  let d : Config := {}
  let named (host : List Char) := if host.isEmpty then d.host else String.ofList host
  match splitLast? ':' l with
  | some (host, port) => (readPort (String.ofList port)).map fun port => (named host, port)
  | none => .ok (named l, d.port)

def ofUrl (url : String) : Except Error Config := do
  let rest ← match dropStart? scheme.toList url.toList with
    | some rest => .ok rest
    | none => .error (.config (.scheme url))
  let (authority, database) := (splitFirst? '/' rest).getD (rest, [])
  let (credentials, address) := match splitLast? '@' authority with
    | some (credentials, address) => (some (readCredentials credentials), address)
    | none => (none, authority)
  let (host, port) ← readAddress address
  return {
    host
    port
    user := credentials.map (·.1)
    password := credentials.bind (·.2)
    database := if database.isEmpty then none else some (String.ofList database) }

end Querent.Config
