import ActivityCatalog.Json.Value

namespace ActivityCatalog.Json.Value

/-!
# Laying one value over another

A value laid over another replaces it, except that an object laid over an object
is laid over it member by member.  A null among those members leaves the member
below it as it is.
-/

mutual

/-- The value that a layer makes of the one below it. -/
def overlay (below : Value) : Value → Value
  | .object layer =>
      match below with
      | .object held => .object (overlayMembers held layer)
      | _ => .object layer
  | layer =>
      layer

/-- The members that a layer makes of those below it. -/
def overlayMembers (held : Dictionary Value) : List (String × Value) → Dictionary Value
  | [] =>
      held
  | (name, value) :: rest =>
      if value.isNull then
        overlayMembers held rest
      else
        let merged :=
          match Dictionary.get? name held with
          | some below => overlay below value
          | none => value
        overlayMembers (Dictionary.insert name merged held) rest

end

end ActivityCatalog.Json.Value
