import Gatekeeper.Command.Basic

namespace Gatekeeper.CommandLine

inductive UsageError where
  | unknownArgument
  | invalidSubcommand
  | missingRequiredArgument
  | missingSubcommand
  | helpOnMissing
  | invalidValue
  | argumentConflict
  | tooManyValues
  | help
deriving DecidableEq, Repr

structure OptionRule where
  name : String
  required : Bool := true
  nonempty : Bool := false

abbrev Values := List (String × String)

inductive Menu where
  | command (options : List OptionRule) (build : Values → Command)
  | choice (optional : Bool) (entries : List (String × Menu))

def configOption : OptionRule := { name := "config", required := false, nonempty := true }

def identityOption : OptionRule := { name := "identity" }

def draftOptions : List OptionRule :=
  [{ name := "key" }, identityOption, { name := "method" }, { name := "params", required := false },
    { name := "nonce", required := false }]

def valueOf (name : String) (vs : Values) : String := (vs.lookup name).getD ""

def draftOf (vs : Values) : Draft where
  key := valueOf "key" vs
  identity := valueOf "identity" vs
  method := valueOf "method" vs
  params := vs.lookup "params"
  nonce := vs.lookup "nonce"

def configOf (vs : Values) : Option String := vs.lookup "config"

def configMenu : Menu :=
  .choice false
    [("validate", .command [configOption] fun vs ↦ .validate (configOf vs)),
      ("example", .command [] fun _ ↦ .showExample)]

def capabilityMenu : Menu :=
  .choice false
    [("mint", .command [configOption, identityOption] fun vs ↦
        .mint (valueOf "identity" vs) (configOf vs)),
      ("revoke", .command [configOption, identityOption] fun vs ↦
        .revoke (valueOf "identity" vs) (configOf vs)),
      ("list", .command [configOption] fun vs ↦ .list (configOf vs))]

def envelopeMenu : Menu :=
  .choice false [("seal", .command draftOptions fun vs ↦ .sealDraft (draftOf vs))]

def mainMenu : Menu :=
  .choice true
    [("serve", .command [configOption] fun vs ↦ .serve (configOf vs)), ("config", configMenu),
      ("capability", capabilityMenu), ("envelope", envelopeMenu),
      ("invoke", .command ({ name := "url" } :: draftOptions) fun vs ↦
        .invoke (valueOf "url" vs) (draftOf vs))]

/-- How far the words have been taken in. An option waits for its value, and is looked at when the
next option or the end comes. The first word that cannot be taken decides; what is missing is
noticed at the end. -/
structure Progress where
  menu : Menu
  version : Bool := false
  versionHere : Bool := false
  trailing : Bool := false
  pending : Option (OptionRule × Option String) := none
  values : Values := []

namespace Progress

def entries (p : Progress) : List (String × Menu) :=
  match p.menu with
  | .command _ _ => []
  | .choice _ entries => entries

def option? (p : Progress) (name : String) : Option OptionRule :=
  match p.menu with
  | .command options _ => options.find? fun o ↦ o.name == name
  | .choice _ _ => none

def commit (p : Progress) (o : OptionRule) (value : String) : Except UsageError Progress :=
  if (p.values.lookup o.name).isSome then .error .argumentConflict
  else if o.nonempty && value.isEmpty then .error .invalidValue
  else .ok { p with pending := none, values := p.values ++ [(o.name, value)] }

/-- Takes in the option that was met last. -/
def resolve (p : Progress) : Except UsageError Progress :=
  match p.pending with
  | none => .ok p
  | some (_, none) => .error .invalidValue
  | some (o, some value) => p.commit o value

def refuse (p : Progress) (word : String) : UsageError :=
  match p.menu with
  | .command _ _ => .unknownArgument
  | .choice _ entries =>
    if p.trailing && (entries.lookup word).isSome then .unknownArgument else .invalidSubcommand

def askVersion (p : Progress) : Except UsageError Progress := do
  let p ← p.resolve
  if p.versionHere then .error .argumentConflict
  else .ok { p with version := true, versionHere := true }

def askHelp (p : Progress) : Except UsageError Progress := do
  let _ ← p.resolve
  .error .help

def takeFlag (ask : Except UsageError Progress) (attached : Option String) :
    Except UsageError Progress :=
  if attached.isSome then .error .tooManyValues else ask

def takeLong (p : Progress) (name : String) (attached : Option String) : Except UsageError Progress :=
  if name = "version" then takeFlag p.askVersion attached
  else if name = "help" then takeFlag p.askHelp attached
  else
    match p.option? name with
    | none => .error .unknownArgument
    | some o => do
      let p ← p.resolve
      match attached with
      | some value => p.commit o value
      | none => .ok { p with pending := some (o, none) }

def splitLong (cs : List Char) : String × Option String :=
  let name := cs.takeWhile (· != '=')
  match cs.drop name.length with
  | [] => (String.ofList name, none)
  | _ :: value => (String.ofList name, some (String.ofList value))

def takeWord (p : Progress) (word : String) : Except UsageError Progress :=
  match word.toList with
  | ['-', '-'] => .ok { p with trailing := true }
  | '-' :: '-' :: cs => p.takeLong (splitLong cs).1 (splitLong cs).2
  | '-' :: 'h' :: _ => p.askHelp
  | '-' :: _ :: _ => .error .unknownArgument
  | _ =>
    match p.pending with
    | some (o, none) => .ok { p with pending := some (o, some word) }
    | _ => .error (p.refuse word)

def take (p : Progress) (word : String) : Except UsageError Progress :=
  if p.trailing then .error (p.refuse word)
  else
    match p.entries.lookup word with
    | some menu => .ok { menu, version := p.version }
    | none => p.takeWord word

def finish (p : Progress) : Except UsageError (Option Command × Bool) := do
  let p ← p.resolve
  match p.menu with
  | .choice true _ => .ok (none, p.version)
  | .choice false _ => .error (if p.versionHere then .missingSubcommand else .helpOnMissing)
  | .command options build =>
    if options.all fun o ↦ !o.required || (p.values.lookup o.name).isSome then
      .ok (some (build p.values), p.version)
    else .error .missingRequiredArgument

end Progress

/-- What a command line asks for; the version comes before everything else. -/
def parse (words : List String) : Except UsageError Invocation := do
  let p ← words.foldlM Progress.take { menu := mainMenu }
  match ← p.finish with
  | (_, true) => .ok .version
  | (some c, false) => .ok (.command c)
  | (none, false) => .ok .usage

end Gatekeeper.CommandLine
