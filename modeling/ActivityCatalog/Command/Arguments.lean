import ActivityCatalog.Settings.Basic

namespace ActivityCatalog.Command

/-!
# Arguments

The arguments name a command after options that all commands share, and then its
own options.  An option `--name` takes the next argument as its value, or the
text after `=` in the same one; a flag takes none.  No option may be given twice
to one command, and what is given to the command goes before what stands before
its name.

`Invocation.parse?` reads the arguments and gives nothing for unusable ones.
-/

/-- What is said of a source in the arguments. -/
structure SourceChoice where
  kind : Option SourceKind
  path : Option String
  root : Option String
  deriving Repr, DecidableEq

/-- A command and its options. -/
inductive Request where
  | serve (host : Option String) (port : Option Nat) (source : SourceChoice)
  | importFile (file archive : String) (root : Option String)
  | tree (locale : Option String) (depth : Option Nat) (asJson : Bool)
      (source : SourceChoice)
  deriving Repr, DecidableEq

/-- A command, and the settings file that is named. -/
structure Invocation where
  settingsFile : Option String
  request : Request
  deriving Repr, DecidableEq

/-- What an argument is. -/
inductive Argument where
  | word (text : String)
  | long (name : String) (value : Option String)
  | short
  | terminator
  deriving Repr, DecidableEq

/-- What an option takes. -/
inductive OptionKind where
  | flag
  | valued
  deriving Repr, DecidableEq

/-- An option that is known. -/
structure KnownOption where
  name : String
  kind : OptionKind
  deriving Repr, DecidableEq

/-- The options given, with their values; a flag has the empty one. -/
abbrev Options :=
  List (String × String)

namespace Argument

/-- The value after the name of an option. -/
def attached : List Char → Option String
  | '=' :: value =>
      some (String.ofList value)
  | _ =>
      none

/-- What the characters of an argument are. -/
def ofChars : List Char → Argument
  | ['-', '-'] =>
      .terminator
  | '-' :: '-' :: rest =>
      .long (String.ofList (rest.takeWhile (· != '='))) (attached (rest.dropWhile (· != '=')))
  | ['-'] =>
      .word "-"
  | '-' :: _ =>
      .short
  | chars =>
      .word (String.ofList chars)

/-- What an argument is. -/
def ofText (text : String) : Argument :=
  ofChars text.toList

/-- Whether an argument may be the value of the option before it. -/
def isWord (text : String) : Bool :=
  match ofText text with
  | .word _ => true
  | _ => false

end Argument

namespace Options

/-- Whether an option was given. -/
def has (name : String) (options : Options) : Bool :=
  options.any fun option => option.1 == name

/-- The value of an option. -/
def value? (name : String) (options : Options) : Option String :=
  (options.find? fun option => option.1 == name).map Prod.snd

/-- Read the value of an option, if it was given; nothing if it does not read. -/
def read? {Result : Type} (parse? : String → Option Result) (name : String)
    (options : Options) : Option (Option Result) :=
  match options.value? name with
  | none => some none
  | some text => (parse? text).map some

/-- Read the value of an option that has to be given. -/
def require? {Result : Type} (parse? : String → Option Result) (name : String)
    (options : Options) : Option Result :=
  (options.value? name).bind parse?

end Options

/-- Read options up to the first word; with them go the arguments from there on. -/
def readOptions (known : List KnownOption) :
    List String → Options → Option (Options × List String)
  | [], held =>
      some (held, [])
  | argument :: rest, held =>
      match Argument.ofText argument with
      | .word _ =>
          some (held, argument :: rest)
      | .short =>
          none
      | .terminator =>
          if rest.isEmpty then some (held, []) else none
      | .long name attached =>
          if held.has name then
            none
          else
            match known.find? fun option => option.name == name with
            | none => none
            | some ⟨_, .flag⟩ =>
                if attached.isNone then
                  readOptions known rest (held ++ [(name, "")])
                else
                  none
            | some ⟨_, .valued⟩ =>
                match attached with
                | some value => readOptions known rest (held ++ [(name, value)])
                | none =>
                    match rest with
                    | [] => none
                    | value :: more =>
                        if Argument.isWord value then
                          readOptions known more (held ++ [(name, value)])
                        else
                          none

/-- The options that all commands share. -/
def sharedOptions : List KnownOption :=
  [⟨"config", .valued⟩]

/-- The options that tell the source. -/
def sourceOptions : List KnownOption :=
  [⟨"source", .valued⟩, ⟨"source-path", .valued⟩, ⟨"root", .valued⟩]

/-- The own options of the command with a name. -/
def ownOptions? : String → Option (List KnownOption)
  | "serve" => some ([⟨"host", .valued⟩, ⟨"port", .valued⟩] ++ sourceOptions)
  | "import" => some [⟨"from", .valued⟩, ⟨"db", .valued⟩, ⟨"root", .valued⟩]
  | "tree" =>
      some ([⟨"locale", .valued⟩, ⟨"depth", .valued⟩, ⟨"json", .flag⟩] ++ sourceOptions)
  | _ => none

/-- A path, which is not empty. -/
def path? (text : String) : Option String :=
  if text = "" then none else some text

/-- A port, whose sign is a plus, or a minus where it is zero. -/
def port? (text : String) : Option Nat :=
  match text.toList with
  | '-' :: digit :: digits =>
      if (digit :: digits).all (· == '0') then some 0 else none
  | _ =>
      Text.naturalWithin? 0 Text.greatestShort text

/-- A depth. -/
def depth? (text : String) : Option Nat :=
  Text.naturalWithin? 0 Text.greatestLong text

/-- What the options say of a source. -/
def sourceChoice? (options : Options) : Option SourceChoice := do
  let kind ← options.read? (fun text => (SourceKind.parse text).toOption) "source"
  pure ⟨kind, options.value? "source-path", options.value? "root"⟩

/-- The command with a name and options. -/
def request? (command : String) (options : Options) : Option Request := do
  match command with
  | "serve" =>
      let port ← options.read? port? "port"
      let source ← sourceChoice? options
      pure (.serve (options.value? "host") port source)
  | "import" =>
      let file ← options.require? path? "from"
      let archive ← options.require? path? "db"
      pure (.importFile file archive (options.value? "root"))
  | "tree" =>
      let depth ← options.read? depth? "depth"
      let source ← sourceChoice? options
      pure (.tree (options.value? "locale") depth (options.has "json") source)
  | _ =>
      none

/-- Read the arguments. -/
def Invocation.parse? (arguments : List String) : Option Invocation := do
  let (shared, rest) ← readOptions sharedOptions arguments []
  match rest with
  | [] =>
      none
  | command :: rest =>
      let own ← ownOptions? command
      let (options, rest) ← readOptions (sharedOptions ++ own) rest []
      if !rest.isEmpty then
        none
      let outer ← shared.read? path? "config"
      let inner ← options.read? path? "config"
      let request ← request? command options
      pure ⟨inner <|> outer, request⟩

end ActivityCatalog.Command
