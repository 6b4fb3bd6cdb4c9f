import Transcript.Json.Value

/-!
# Sessions and scopes

A session is a conversation of one user of one application. A scope is the part of a session that
is summed up on its own: what is said on one branch and the branches below it, or everything.
-/

namespace Transcript

/-- The name of a session. -/
structure SessionKey where
  /-- The application. -/
  app : String
  /-- The user of the application. -/
  user : String
  /-- The session of the user. -/
  session : String
deriving DecidableEq, Repr

namespace SessionKey

/-- The name on one line. -/
def text (k : SessionKey) : String := k.app ++ "/" ++ k.user ++ "/" ++ k.session

/-- The JSON form of a name. -/
def encode (k : SessionKey) : Json.Value :=
  .object [("app_name", .string k.app), ("user_id", .string k.user),
    ("session_id", .string k.session)]

end SessionKey

/-- A part of a session that is summed up on its own. -/
structure Scope where
  /-- The session. -/
  session : SessionKey
  /-- The branch, or the empty text for the whole session. -/
  filter : String
deriving DecidableEq, Repr

namespace Scope

/-- A whole session. -/
def whole (session : SessionKey) : Scope := ⟨session, ""⟩

/-- The scope on one line. -/
def text (s : Scope) : String :=
  if s.filter.isEmpty then s.session.text else s.session.text ++ "#" ++ s.filter

/-- The JSON form of a scope. -/
def encode (s : Scope) : Json.Value :=
  .object [("session", s.session.encode), ("filter_key", .string s.filter)]

end Scope

end Transcript
