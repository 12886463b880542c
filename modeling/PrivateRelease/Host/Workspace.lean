import PrivateRelease.Host.Combination

/-!
# Workspaces

Named entities and privacy curves, and the commands on them. A command that makes something under a
taken name gives back what had the name. Commands that consume entities take them out and put them
back if they fail.
-/

namespace PrivateRelease.Host

open Boundary (Ledger)

/-- How an entity is made from values. -/
inductive Construction where
  | identity
  | clamp (lower upper : Value)
  | boundedSum (lower upper : Value)
  | boundedMean (lower upper : Value) (n : Nat)
  | count
  | laplace (scale : Value)
  | gaussian (scale : Value)
  | geometric (scale : Binary .double)

inductive Command where
  | make (name : String) (c : Construction) (hints : Hints)
  | chain (name first second : String)
  | compose (name : String) (parts : List String) (policy : CompositionPolicy)
  | amplify (name on : String) (population : Nat) (records measure : TypeHint)
  | fixDelta (name on : String) (delta : Binary .double)
  | describe (on : String)
  | invoke (on : String) (v : Value)
  | map (on : String) (d : Value)
  | check (on : String) (dIn dOut : Value)
  | mapCurve (name on : String) (d : Value)
  | epsilon (on : String) (delta : Binary .double)
  | curveText (on : String)
  | dropCurve (on : String)
  | tree (on : String)
  | release (on : String)
  | drop (on : String)
  | toTransformation (on : String)
  | toMeasurement (on : String)

inductive Answer where
  | descriptors (d : Descriptors)
  /-- The texts of the domains and distances alone. -/
  | signature (d : Descriptors)
  | value (v : Value)
  | verdict (b : Bool)
  | text (s : String)
  | epsilon (x : Binary .double)
  | tree (h : Handle)
  | released (n : Nat)
  | dropped

inductive Refusal where
  | noSuchName (name : String)
  | wrongRole (name : String)
  | failed (why : Failure)

structure Workspace where
  entities : List (String × AnyEntity)
  curves : List (String × Curve)

namespace Workspace

def empty : Workspace := ⟨[], []⟩

def without {α : Type} (name : String) (xs : List (String × α)) : List (String × α) :=
  xs.filter fun x => x.1 ≠ name

def entity? (w : Workspace) (name : String) : Option AnyEntity := w.entities.lookup name

def curve? (w : Workspace) (name : String) : Option Curve := w.curves.lookup name

def handles (w : Workspace) : List Handle :=
  w.entities.map (fun x => x.2.handle) ++ w.curves.map fun x => x.2.handle

def remove (w : Workspace) (name : String) : Workspace :=
  { w with entities := without name w.entities }

def put (w : Workspace) (name : String) (e : AnyEntity) : Workspace :=
  { w with entities := (name, e) :: without name w.entities }

def removeCurve (w : Workspace) (name : String) : Workspace :=
  { w with curves := without name w.curves }

def putCurve (w : Workspace) (name : String) (c : Curve) : Workspace :=
  { w with curves := (name, c) :: without name w.curves }

end Workspace

/-- A command changes the workspace and the ledger, whether it is refused or not. -/
abbrev Session (α : Type) := StateT Workspace (StateM Ledger) (Except Refusal α)

namespace Session

def refuse {α : Type} (r : Refusal) : Session α := fun w l => ((.error r, w), l)

/-- Runs an action, which does not change the workspace. -/
def act {α : Type} (a : Action α) : Session α := fun w l =>
  match a l with
  | (.ok x, l) => ((.ok x, w), l)
  | (.error e, l) => ((.error (.failed e), w), l)

variable [Elementary]

/-- Runs an action on a named entity. -/
def onEntity {α : Type} (name : String) (a : AnyEntity → Action α) : Session α := fun w l =>
  match w.entity? name with
  | some e => act (a e) w l
  | none => refuse (.noSuchName name) w l

/-- Gives back what had the name. -/
def dropNamed (w : Workspace) (name : String) : StateM Ledger Unit :=
  match w.entity? name with
  | some e => e.handle.drop
  | none => pure ()

/-- Keeps an entity under a name and answers with its descriptors. -/
def keep (name : String) (e : AnyEntity) : Session Answer := fun w l =>
  let (_, l) := dropNamed w name l
  ((.ok (.descriptors e.descriptors), w.put name e), l)

/-- Runs an action that makes an entity. -/
def making (name : String) (a : Action AnyEntity) : Session Answer := fun w l =>
  match a l with
  | (.ok e, l) => keep name e w l
  | (.error e, l) => ((.error (.failed e), w), l)

/-- Runs an operation on entities taken out of the workspace. `putBack` restores its inputs. -/
def consuming {ι : Type} (name : String) (c : Consuming ι AnyEntity)
    (putBack : ι → Workspace → Workspace) : Session Answer := fun w l =>
  match c l with
  | (.ok e, l) => keep name e w l
  | (.error r, l) => ((.error (.failed r.failure), putBack r.inputs w), l)

/-- Takes a measurement out of the workspace. -/
def takeMeasurement (name : String) (w : Workspace) :
    Except Refusal (Entity .measurement × Workspace) :=
  match w.entity? name with
  | some (.measurement m) => .ok (m, w.remove name)
  | some (.transformation _) => .error (.wrongRole name)
  | none => .error (.noSuchName name)

/-- Takes measurements out one by one. -/
def takeMeasurements : List String → Workspace →
    Except Refusal (List (Entity .measurement) × Workspace)
  | [], w => .ok ([], w)
  | name :: names, w => do
    let (m, w) ← takeMeasurement name w
    let (ms, w) ← takeMeasurements names w
    return (m :: ms, w)

def putMeasurement (name : String) (m : Entity .measurement) (w : Workspace) : Workspace :=
  w.put name (.measurement m)

def putMeasurements : List String → List (Entity .measurement) → Workspace → Workspace
  | name :: names, m :: ms, w => putMeasurements names ms (putMeasurement name m w)
  | _, _, w => w

end Session

namespace Construction

variable [Elementary]

def run (l : Library) (hints : Hints) : Construction → Action AnyEntity
  | identity => .transformation <$> l.identity hints
  | clamp lower upper => .transformation <$> l.clamp lower upper hints
  | boundedSum lower upper => .transformation <$> l.boundedSum lower upper hints
  | boundedMean lower upper n => .transformation <$> l.boundedMean lower upper n hints
  | count => .transformation <$> l.count hints
  | laplace scale => .measurement <$> l.laplace scale hints
  | gaussian scale => .measurement <$> l.gaussian scale hints
  | geometric scale => .measurement <$> l.geometric scale hints

end Construction

namespace Command

open Session

variable [Elementary]

def runChain (l : Library) (name first second : String) : Session Answer := fun w ledger =>
  match w.entity? first, w.entity? second with
  | some e, some f =>
    if first = second then refuse (.noSuchName second) w ledger
    else
      consuming name (l.chain e f) (fun (e, f) w => (w.put first e).put second f)
        ((w.remove first).remove second) ledger
  | none, some _ =>
    refuse (.noSuchName first) w ledger
  | _, none => refuse (.noSuchName second) w ledger

def runCompose (l : Library) (name : String) (parts : List String) (policy : CompositionPolicy) :
    Session Answer := fun w ledger =>
  match takeMeasurements parts w with
  | .ok (ms, w) =>
    consuming name (.measurement <$> l.compose ms policy) (putMeasurements parts) w ledger
  | .error r => refuse r w ledger

/-- Consumes one measurement. -/
def runOn (name on : String)
    (c : Entity .measurement → Consuming (Entity .measurement) (Entity .measurement)) :
    Session Answer := fun w ledger =>
  match takeMeasurement on w with
  | .ok (m, w) => consuming name (.measurement <$> c m) (putMeasurement on) w ledger
  | .error r => refuse r w ledger

def runMapCurve (name on : String) (d : Value) : Session Answer := fun w l =>
  match w.entity? on with
  | some (.measurement m) =>
    let make : Action (Curve × String) := do
      let c ← m.mapCurve d
      let text ← c.toText.orElseRun c.handle.drop
      return (c, text)
    match make l with
    | (.ok (c, text), l) =>
      let (_, l) := (match w.curve? name with
        | some old => old.handle.drop
        | none => pure () : StateM Ledger Unit) l
      ((.ok (.text text), w.putCurve name c), l)
    | (.error e, l) => ((.error (.failed e), w), l)
  | some (.transformation _) => refuse (.wrongRole on) w l
  | none => refuse (.noSuchName on) w l

def runEpsilon (on : String) (delta : Binary .double) : Session Answer := fun w l =>
  match w.curve? on with
  | some c => act (.epsilon <$> c.epsilon delta) w l
  | none => refuse (.noSuchName on) w l

def runCurveText (on : String) : Session Answer := fun w l =>
  match w.curve? on with
  | some c => act (.text <$> c.toText) w l
  | none => refuse (.noSuchName on) w l

def runDropCurve (on : String) : Session Answer := fun w l =>
  match w.curve? on with
  | some c => ((.ok (.verdict true), w.removeCurve on), (c.handle.drop l).2)
  | none => ((.ok (.verdict false), w), l)

def runRelease (on : String) : Session Answer := fun w l =>
  match w.entity? on with
  | some e => act (.released <$> e.handle.release) (w.remove on) l
  | none => refuse (.noSuchName on) w l

def runDrop (on : String) : Session Answer := fun w l =>
  match w.entity? on with
  | some e => ((.ok .dropped, w.remove on), (e.handle.drop l).2)
  | none => refuse (.noSuchName on) w l

/-- Answers with the signature of an entity of the wanted role, and gives back any other. -/
def runInto {r : Role} (on : String) (c : AnyEntity → Except Failure (Entity r)) :
    Session Answer := fun w l =>
  match w.entity? on with
  | some e =>
    match c e with
    | .ok e => ((.ok (.signature e.descriptors), w), l)
    | .error why => ((.error (.failed why), w.remove on), (e.handle.drop l).2)
  | none => refuse (.noSuchName on) w l

def run (l : Library) : Command → Session Answer
  | make name c hints => making name (c.run l hints)
  | chain name first second => runChain l name first second
  | compose name parts policy => runCompose l name parts policy
  | amplify name on population records measure =>
    runOn name on fun m => l.amplify m population records measure
  | fixDelta name on delta => runOn name on fun m => l.fixDelta m delta
  | describe on => onEntity on fun e => return .descriptors e.descriptors
  | invoke on v => onEntity on fun e => .value <$> e.invoke v
  | map on d => onEntity on fun e => .value <$> e.map d
  | check on dIn dOut => onEntity on fun e => .verdict <$> e.check dIn dOut
  | mapCurve name on d => runMapCurve name on d
  | epsilon on delta => runEpsilon on delta
  | curveText on => runCurveText on
  | dropCurve on => runDropCurve on
  | tree on => onEntity on fun e => return .tree e.handle
  | release on => runRelease on
  | drop on => runDrop on
  | toTransformation on => runInto on AnyEntity.toTransformation
  | toMeasurement on => runInto on AnyEntity.toMeasurement

end Command

namespace Workspace

variable [Elementary]

/-- Gives back everything in the workspace. -/
def close (w : Workspace) : StateM Ledger Unit := Handle.dropAll w.handles

end Workspace

end PrivateRelease.Host
