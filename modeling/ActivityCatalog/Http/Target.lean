namespace ActivityCatalog.Http

/-!
# Targets

A request asks for a target: a path that starts with `/` and may have a query after
`?`, or an address in which a scheme, `://` and an authority stand before them.  An
address without a path has the path `/`.  A fragment after `#` is not asked for.
-/

/-- What a request asks for. -/
structure Target where
  path : String
  query : String
  deriving Repr, DecidableEq

namespace Target

/-- Whether a character may be part of a scheme. -/
def isSchemeChar (char : Char) : Bool :=
  char.isAlphanum || ['+', '-', '.', '~'].contains char

/-- Whether a character ends an authority. -/
def endsAuthority (char : Char) : Bool :=
  ['/', '?', '#'].contains char

/-- The characters of an address after its authority; an authority alone has none. -/
def afterAuthority (address : List Char) : List Char :=
  match address.dropWhile isSchemeChar with
  | ':' :: '/' :: '/' :: rest =>
      let resource := rest.dropWhile fun char => !endsAuthority char
      if resource.head? == some '/' then resource else '/' :: resource
  | _ =>
      []

/-- The path and the query of characters up to a fragment. -/
def ofResource (resource : List Char) : Target :=
  let whole := resource.takeWhile (· != '#')
  { path := String.ofList (whole.takeWhile (· != '?')),
    query := String.ofList ((whole.dropWhile (· != '?')).drop 1) }

/-- The target that a text tells. -/
def ofText (text : String) : Target :=
  match text.toList with
  | '/' :: rest => ofResource ('/' :: rest)
  | address => ofResource (afterAuthority address)

end Target

end ActivityCatalog.Http
