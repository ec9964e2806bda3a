import Gatekeeper.Command.Draft
import Gatekeeper.Command.Menu
import Gatekeeper.Command.Scene
import Gatekeeper.Server.Routes
import Gatekeeper.Settings.Example
import Gatekeeper.Settings.Load

namespace Gatekeeper

namespace Command

variable {σ : Type}

abbrev Result (α : Type) := Except CommandError α × Scene

def loadConfiguration (w : Surroundings) (config : Option String) (s : Scene) :
    Except CommandError Configuration :=
  (Configuration.load s.disk w.configPath config).mapError .load

def openStore (c : Configuration) (s : Scene) : Result (Option Connection) :=
  match c.store.database? with
  | none => (.ok none, s)
  | some settings =>
    match Connection.openDatabase s.disk settings with
    | (.opened connection, d) => (.ok (some connection), { s with disk := d })
    | (.refused e, d) => (.error (.openStore e), { s with disk := d })
    | (.breakdown, d) => (.error .breakdown, { s with disk := d })

def withDatabase (c : Configuration) (s : Scene) (f : Connection → Disk → Except CommandError α × Disk) :
    Result α :=
  match openStore c s with
  | (.error e, s) => (.error e, s)
  | (.ok none, s) => (.error .needsDatabase, s)
  | (.ok (some connection), s) =>
    let (a, d) := f connection s.disk
    (a, { s with disk := connection.close d })

def printJson (w : Surroundings) (v : Json) (s : Scene) : Result Unit := s.printLine w v.pretty

def memoryNotice : String := "memory store: add this key under [[capability_store.keys]] to use it"

def mintedDocument (i : Identity) (k : Key) (persisted : Bool) : Json :=
  .object [("identity", i.toJson), ("key", .string k.toBase64), ("persisted", .bool persisted)]

def runMint (w : Surroundings) (name : String) (config : Option String) (s : Scene) : Result Unit :=
  match loadConfiguration w config s with
  | .error e => (.error e, s)
  | .ok c =>
    match Identity.typed name with
    | .error e => (.error e, s)
    | .ok i =>
      if c.store.database?.isNone then
        match s.notice w memoryNotice with
        | (.error e, s) => (.error e, s)
        | (.ok (), s) => printJson w (mintedDocument i w.freshKey false) s
      else
        match withDatabase c s fun connection d ↦
            let (r, d) := connection.mint d i w.freshKey
            (r.mapError .mint, d) with
        | (.error e, s) => (.error e, s)
        | (.ok k, s) => printJson w (mintedDocument i k true) s

def runRevoke (w : Surroundings) (name : String) (config : Option String) (s : Scene) : Result Unit :=
  match loadConfiguration w config s with
  | .error e => (.error e, s)
  | .ok c =>
    match Identity.typed name with
    | .error e => (.error e, s)
    | .ok i =>
      match withDatabase c s fun connection d ↦
          let (r, d) := connection.revoke d i
          (r.mapError .revoke, d) with
      | (.error e, s) => (.error e, s)
      | (.ok revoked, s) =>
        printJson w (.object [("identity", i.toJson), ("revoked", .bool revoked)]) s

def runList (w : Surroundings) (config : Option String) (s : Scene) : Result Unit :=
  match loadConfiguration w config s with
  | .error e => (.error e, s)
  | .ok c =>
    match withDatabase c s fun connection d ↦
        let (r, d) := connection.identities d
        (r.mapError .list, d) with
    | (.error e, s) => (.error e, s)
    | (.ok identities, s) =>
      printJson w (.object [("identities", .array (identities.map Identity.toJson))]) s

def runValidate (w : Surroundings) (config : Option String) (s : Scene) : Result Unit :=
  match loadConfiguration w config s with
  | .error e => (.error e, s)
  | .ok c =>
    let name := c.service.operationsModule.getD ""
    s.printLine w s!"config ok (operations module: {name})"

def runSeal (w : Surroundings) (draft : Draft) (s : Scene) : Result Unit :=
  match draft.request w.freshness with
  | .error e => (.error e, s)
  | .ok r => printJson w r.toSortedJson s

def dropSlashes (url : String) : String :=
  String.ofList (url.toList.reverse.dropWhile (· == '/')).reverse

def targetOf (url : String) : String :=
  let base := dropSlashes (Text.trim url)
  let route := "/process_capability"
  if route.toList.isSuffixOf base.toList then base else base ++ route

def runInvoke (w : Surroundings) (url : String) (draft : Draft) (s : Scene) : Result Unit :=
  match draft.request w.freshness with
  | .error e => (.error e, s)
  | .ok r =>
    match w.post (targetOf url) r.toSortedJson.renderBytes with
    | .error cause => (.error (.unreachable (targetOf url) cause), s)
    | .ok response =>
      let text := response.body.toString?.getD ""
      if 200 ≤ response.status ∧ response.status < 300 then s.printLine w text
      else (.error (.refused (Http.statusText response.status) text), s)

inductive Ending where
  | success
  | failure
  | serving (address : Net.SocketAddress)
deriving DecidableEq, Repr

def runServe (w : Surroundings) (modules : ModuleRegistry σ) (config : Option String) (s : Scene) :
    Result Net.SocketAddress :=
  match loadConfiguration w config s with
  | .error e => (.error e, s)
  | .ok c =>
    match Server.start w.now c modules s.disk with
    | (.error e, d) => (.error (.setup e), { s with disk := d })
    | (.ok started, d) =>
      let s := { s with disk := d }.report w started.errors
      let address := started.server.address
      let stop (s : Scene) : Scene := { s with disk := started.server.store.close s.disk }
      match s.notice w s!"guardian listening on {address.text}" with
      | (.error e, s) => (.error e, stop s)
      | (.ok (), s) =>
        if w.canListen address then (.ok address, s)
        else (.error (.serving (.transport "http bind failed")), stop s)

def finish (w : Surroundings) (done : α → Ending) : Result α → Ending × Scene
  | (.ok a, s) => (done a, s)
  | (.error e, s) => (.failure, s.report w [e.message])

def run (w : Surroundings) (modules : ModuleRegistry σ) (c : Command) (s : Scene) : Ending × Scene :=
  let end' := finish w fun () ↦ .success
  match c with
  | .serve config => finish w .serving (runServe w modules config s)
  | .validate config => end' (runValidate w config s)
  | .showExample => end' (s.print w Configuration.exampleText)
  | .mint identity config => end' (runMint w identity config s)
  | .revoke identity config => end' (runRevoke w identity config s)
  | .list config => end' (runList w config s)
  | .sealDraft draft => end' (runSeal w draft s)
  | .invoke url draft => end' (runInvoke w url draft s)

end Command

namespace Invocation

def usageText : String := "usage: guardian <serve|config|capability|envelope|invoke> --help"

variable {σ : Type}

def run (w : Surroundings) (modules : ModuleRegistry σ) (i : Invocation) (s : Scene) :
    Command.Ending × Scene :=
  match i with
  | version => Command.finish w (fun () ↦ .success) (s.printLine w s!"guardian {Server.version}")
  | usage => Command.finish w (fun () ↦ .success) (s.printLine w usageText)
  | command c => c.run w modules s

end Invocation

end Gatekeeper
