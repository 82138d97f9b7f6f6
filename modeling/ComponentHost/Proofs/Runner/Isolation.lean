/-
# `ComponentHost.Proofs.Runner.Isolation` — one instance does not feel the others

A module has an instance for each of its bindings, and a function that is found in it
carries the number of the instance it belongs to.  Where the function was found does not
matter from then on: not the path it was called by, and not the statements that put it
there.  So the instances can be looked at one by one.

    ownership    a function in place `k` is one of the component that the `k`-th binding
                 names, and the `k`-th instance is the one made for that binding
    isolation    the replies of calls into instance `k` are those of a run in which no
                 other instance is called
    sharing      they are what the instance alone answers to these calls, one after the
                 other

A call reads and writes the store it is given, by the type of `Body`; all else is proved
here.
-/
import ComponentHost.Component.Behaviour
import ComponentHost.Proofs.Runner.History
import ComponentHost.Proofs.Runner.Ownership

namespace ComponentHost

open Entry

/-! ## Calls into one instance -/

namespace BoundFunction

/-- The answer to a call, and the instance after it, when the function is called in `i`. -/
def callIn (f : BoundFunction) (args : List Json) (i : Instance) : Answer × Instance :=
  match f.prepare args with
  | .error e => (.error e, i)
  | .ok (body, data) =>
    match i.enter body data with
    | (.ok result, i) => (answer result, i)
    | (.error e, i) => (.error (.runtimeException e), i)

variable {f : BoundFunction} {args : List Json} {instances : List Instance}

theorem call_eq {i : Instance} (h : instances[f.owner]? = some i) :
    f.call args instances = ((f.callIn args i).1, instances.set f.owner (f.callIn args i).2) := by
  rw [call, callIn]
  cases f.prepare args with
  | error e =>
    obtain ⟨hlt, rfl⟩ := List.getElem?_eq_some_iff.mp h
    simp only [List.set_getElem_self]
  | ok x =>
    simp only [h]
    cases hi : i.enter x.1 x.2 with
    | mk result i' => cases result <;> rfl

theorem call_of_none (h : instances[f.owner]? = none) :
    (f.call args instances).2 = instances := by
  rw [call]
  cases f.prepare args with
  | error e => rfl
  | ok x => simp only [h]

theorem call_other {k : Nat} (h : f.owner ≠ k) : (f.call args instances).2[k]? = instances[k]? := by
  cases ho : instances[f.owner]? with
  | none => rw [call_of_none ho]
  | some i => rw [call_eq ho, List.getElem?_set_ne h]

end BoundFunction

/-- What an instance answers to calls, one after the other. -/
def Instance.answers : Instance → List (BoundFunction × List Json) → List Answer
  | _, [] => []
  | i, (f, args) :: calls => (f.callIn args i).1 :: answers (f.callIn args i).2 calls

namespace Runner

/-! ## What calls reach -/

/-- The place of the instance that a call or a run reaches. -/
def reached? (r : Runner) (op : Operation) : Option Nat :=
  (r.target? op).map (·.1.owner)

/-- The operation reaches the instance in place `k`. -/
def reaches (r : Runner) (k : Nat) (op : Operation) : Bool :=
  r.reached? op == some k

/-- The operation reaches no instance but the one in place `k`. -/
def spares (r : Runner) (k : Nat) (op : Operation) : Bool :=
  (r.reached? op).all (· == k)

/-- The replies to those operations of a history that are picked. -/
def repliesTo (h : Host) (r : Runner) (pick : Operation → Bool) (ops : List Operation) :
    List Reply :=
  ((ops.zip (replies h r ops)).filter fun x => pick x.1).map (·.2)

variable {h : Host} {r₀ r r' : Runner} {m m' : Runnable} {k : Nat} {i : Instance} {op : Operation}
  {pick : Operation → Bool}

theorem repliesTo_cons_of_pos (hp : pick op = true) (ops : List Operation) :
    r.repliesTo h pick (op :: ops) =
      (r.step h op).1 :: (r.step h op).2.repliesTo h pick ops := by
  rw [repliesTo, replies, List.zip_cons_cons, List.filter_cons, if_pos hp, List.map_cons, repliesTo]

theorem repliesTo_cons_of_neg (hp : ¬ pick op = true) (ops : List Operation) :
    r.repliesTo h pick (op :: ops) = (r.step h op).2.repliesTo h pick ops := by
  rw [repliesTo, replies, List.zip_cons_cons, List.filter_cons, if_neg hp, repliesTo]

theorem only_target {P : BoundFunction → Prop} (hm : r.state.runnable? = some m)
    (hgraph : m.module.graph.Only P) (hexports : ∀ x ∈ m.exports, P x.target) {f : BoundFunction}
    {args : List Json} (ht : r.target? op = some (f, args)) : P f := by
  have hfind : ∀ {name x}, r.findExport name = some x → P x.target := by
    intro name x hx
    have hr : r.exports = m.exports := by rw [exports, State.exports, hm]
    rw [findExport, hr, Option.or_eq_some_iff] at hx
    rcases hx with hx | ⟨-, hx⟩
    · exact hexports x (List.mem_of_find?_eq_some hx)
    · exact hexports x (List.mem_of_find?_eq_some hx)
  cases op with
  | call name text =>
    obtain ⟨x, hx, heq⟩ := Option.map_eq_some_iff.mp ht
    cases heq
    exact hfind hx
  | callWith name args =>
    obtain ⟨x, hx, heq⟩ := Option.map_eq_some_iff.mp ht
    cases heq
    exact hfind hx
  | run =>
    rw [target?, hm] at ht
    obtain ⟨x, hx, heq⟩ := Option.map_eq_some_iff.mp ht
    cases heq
    exact hgraph.findEntryPoint hx
  | _ => cases ht

/-- Which function an operation reaches depends on the exports, the graph and its root only. -/
theorem target?_congr (hm : r.state.runnable? = some m) (hm' : r'.state.runnable? = some m')
    (hexports : m'.exports = m.exports) (hgraph : m'.module.graph = m.module.graph)
    (hroot : m'.root = m.root) (op : Operation) : r'.target? op = r.target? op := by
  have hfind : ∀ name, r'.findExport name = r.findExport name := by
    intro name
    simp only [findExport, exports, State.exports, hm, hm', hexports]
  cases op with
  | call name text => rw [target?, target?, hfind]
  | callWith name args => rw [target?, target?, hfind]
  | run => rw [target?, target?, hm, hm', Option.bind_some, Option.bind_some, hgraph, hroot]
  | _ => rfl

/-! ## Runs seen from one instance -/

/-- Operations reach in the runner what they reach in `r₀`, and the instance in place `k` is `i`. -/
structure Serves (r₀ : Runner) (k : Nat) (i : Instance) (r : Runner) : Prop where
  target : ∀ op, r.target? op = r₀.target? op
  present : ∃ m, r.state.runnable? = some m ∧ m.module.instances[k]? = some i

theorem Serves.of_enter (hs : Serves r₀ k i r) (hm : r.state.runnable? = some m) {f : BoundFunction}
    {args : List Json} (hm' : r'.state.runnable? = some (m.enter f args).2) {i' : Instance}
    (hi' : (f.call args m.module.instances).2[k]? = some i') : Serves r₀ k i' r' where
  target op := (target?_congr hm hm' rfl rfl rfl op).trans (hs.target op)
  present := ⟨_, hm', hi'⟩

theorem Serves.instance_eq (hs : Serves r₀ k i r) (hm : r.state.runnable? = some m) :
    m.module.instances[k]? = some i := by
  obtain ⟨m', hm', hi⟩ := hs.present
  cases hm.symm.trans hm'
  exact hi

theorem Serves.step_reached (hs : Serves r₀ k i r) (hc : op.calls = true) {f : BoundFunction}
    {args : List Json} (ht : r₀.target? op = some (f, args)) (hk : f.owner = k) :
    (r.step h op).1 = op.answered (some (f.callIn args i).1) ∧
      Serves r₀ k (f.callIn args i).2 (r.step h op).2 := by
  rcases (step_move h r op).of_calls hc with ⟨m, f', args', hm, hf, hreply, hnext⟩ | ⟨hf, -, -⟩
  · obtain ⟨rfl, rfl⟩ := Prod.mk.inj (Option.some.inj ((hs.target op ▸ hf).symm.trans ht))
    have hi := hs.instance_eq hm
    rw [← hk] at hi
    have hcall : f'.call args' m.module.instances = _ := BoundFunction.call_eq hi
    obtain ⟨hlt, -⟩ := List.getElem?_eq_some_iff.mp hi
    refine ⟨?_, hs.of_enter hm hnext ?_⟩
    · rw [hreply]
      exact congrArg (fun x => op.answered (some x.1)) hcall
    · rw [hcall, ← hk, List.getElem?_set_self hlt]
  · cases (hs.target op ▸ hf).symm.trans ht

theorem Serves.step_other (hs : Serves r₀ k i r) (hc : op.calls = true) {f : BoundFunction}
    {args : List Json} (ht : r₀.target? op = some (f, args)) (hk : f.owner ≠ k) :
    Serves r₀ k i (r.step h op).2 := by
  rcases (step_move h r op).of_calls hc with ⟨m, f', args', hm, hf, -, hnext⟩ | ⟨hf, -, -⟩
  · obtain ⟨rfl, rfl⟩ := Prod.mk.inj (Option.some.inj ((hs.target op ▸ hf).symm.trans ht))
    exact hs.of_enter hm hnext (by rw [BoundFunction.call_other hk, hs.instance_eq hm])
  · cases (hs.target op ▸ hf).symm.trans ht

theorem Serves.step_missed (hs : Serves r₀ k i r) (hc : op.calls = true)
    (ht : r₀.target? op = none) :
    (r.step h op).1 = op.answered none ∧ Serves r₀ k i (r.step h op).2 := by
  rcases (step_move h r op).of_calls hc with ⟨m, f, args, -, hf, -, -⟩ | ⟨-, hreply, hstate⟩
  · cases (hs.target op ▸ hf).symm.trans ht
  · obtain ⟨m, hm, hi⟩ := hs.present
    have hm' : (r.step h op).2.state.runnable? = some m := by rw [hstate, hm]
    exact ⟨hreply, fun op => (target?_congr hm hm' rfl rfl rfl op).trans (hs.target op), m, hm', hi⟩

/-- Two runs that agree about one instance reply alike where no other is reached, although the
second leaves out what reaches others. -/
theorem Serves.replies_filter (h : Host) :
    ∀ {r r' : Runner} {i : Instance} (_ : Serves r₀ k i r) (_ : Serves r₀ k i r')
      (ops : List Operation), (∀ op ∈ ops, op.calls = true) →
      r.repliesTo h (r₀.spares k) ops = replies h r' (ops.filter (r₀.spares k))
  | _, _, _, _, _, [], _ => rfl
  | r, r', i, hs, hs', op :: ops, hops => by
      obtain ⟨hc, hops⟩ := List.forall_mem_cons.mp hops
      cases ht : r₀.target? op with
      | none =>
        have hspares : r₀.spares k op = true := by rw [spares, reached?, ht]; rfl
        obtain ⟨hreply, hnext⟩ := hs.step_missed (h := h) hc ht
        obtain ⟨hreply', hnext'⟩ := hs'.step_missed (h := h) hc ht
        rw [repliesTo_cons_of_pos hspares, List.filter_cons_of_pos hspares, replies, hreply,
          hreply', hnext.replies_filter h hnext' ops hops]
      | some x =>
        obtain ⟨f, args⟩ := x
        by_cases hk : f.owner = k
        · have hspares : r₀.spares k op = true := by
            rw [spares, reached?, ht]
            exact beq_iff_eq.mpr hk
          obtain ⟨hreply, hnext⟩ := hs.step_reached (h := h) hc ht hk
          obtain ⟨hreply', hnext'⟩ := hs'.step_reached (h := h) hc ht hk
          rw [repliesTo_cons_of_pos hspares, List.filter_cons_of_pos hspares, replies, hreply,
            hreply', hnext.replies_filter h hnext' ops hops]
        · have hspares : ¬ r₀.spares k op = true := by
            rw [spares, reached?, ht]
            exact fun heq => hk (beq_iff_eq.mp heq)
          rw [repliesTo_cons_of_neg hspares, List.filter_cons_of_neg hspares]
          exact (hs.step_other hc ht hk).replies_filter h hs' ops hops

theorem Serves.replies_reached (h : Host) :
    ∀ {r : Runner} {i : Instance} (_ : Serves r₀ k i r) (ops : List Operation),
      (∀ op ∈ ops, op.calls = true) →
      r.repliesTo h (r₀.reaches k) ops =
        List.zipWith (fun op answer => op.answered (some answer)) (ops.filter (r₀.reaches k))
          (i.answers ((ops.filter (r₀.reaches k)).filterMap r₀.target?))
  | _, _, _, [], _ => rfl
  | r, i, hs, op :: ops, hops => by
      obtain ⟨hc, hops⟩ := List.forall_mem_cons.mp hops
      cases ht : r₀.target? op with
      | none =>
        have hreaches : ¬ r₀.reaches k op = true := by
          rw [reaches, reached?, ht]
          exact Bool.false_ne_true
        rw [repliesTo_cons_of_neg hreaches, List.filter_cons_of_neg hreaches]
        exact (hs.step_missed hc ht).2.replies_reached h ops hops
      | some x =>
        obtain ⟨f, args⟩ := x
        by_cases hk : f.owner = k
        · have hreaches : r₀.reaches k op = true := by
            rw [reaches, reached?, ht]
            exact beq_iff_eq.mpr (congrArg some hk)
          obtain ⟨hreply, hnext⟩ := hs.step_reached (h := h) hc ht hk
          rw [repliesTo_cons_of_pos hreaches, List.filter_cons_of_pos hreaches,
            List.filterMap_cons_some ht, Instance.answers, List.zipWith_cons_cons, hreply,
            hnext.replies_reached h ops hops]
        · have hreaches : ¬ r₀.reaches k op = true := by
            rw [reaches, reached?, ht]
            exact fun heq => hk (Option.some.inj (beq_iff_eq.mp heq))
          rw [repliesTo_cons_of_neg hreaches, List.filter_cons_of_neg hreaches]
          exact (hs.step_other hc ht hk).replies_reached h ops hops

/-- **Instances are isolated, and shared by all that reaches them.**  Let a module be loaded, and
called and run any number of times.  Each function that is reached belongs to the instance that was
made for its binding.  What is replied where no instance but the `k`-th is reached is replied as
well when all that reaches other instances is left out; and what the `k`-th instance is reached
with, by whatever paths, it answers as it does alone, call after call. -/
theorem replies_of_one_instance (h : Host) {r : Runner} {l : Loader} {source : String}
    {table : ResourceTable} {M : Module} (hload : Module.load l source table = .ok M) {a : Artifact}
    {handles : List Handle} (hr : r.state = .runnable (Runnable.discover a M handles))
    {ops : List Operation} (hops : ∀ op ∈ ops, op.calls = true) :
    (∃ statements, parse source = .ok statements ∧
      M.instances.length = (statements.filter Statement.isBind).length ∧
      ∀ op f args, r.target? op = some (f, args) → ∃ i, M.instances[f.owner]? = some i ∧
        l.Owns (fun _ locator => table.resolve locator) (statements.filter Statement.isBind) i f) ∧
    ∀ k i, M.instances[k]? = some i →
      r.repliesTo h (r.spares k) ops = replies h r (ops.filter (r.spares k)) ∧
        r.repliesTo h (r.reaches k) ops =
          List.zipWith (fun op answer => op.answered (some answer)) (ops.filter (r.reaches k))
            (i.answers ((ops.filter (r.reaches k)).filterMap r.target?)) := by
  have hm : r.state.runnable? = some (Runnable.discover a M handles) := by
    rw [hr]
    rfl
  refine ⟨?_, fun k i hi => ?_⟩
  · cases hparse : parse source with
    | error e =>
      rw [Module.load, hparse] at hload
      cases hload
    | ok statements =>
      obtain ⟨hlen, honly⟩ := Module.owns_of_load hparse hload
      refine ⟨statements, rfl, hlen, fun op f args ht => ?_⟩
      exact only_target hm honly (honly.walk _ _) ht
  · have hs : Serves r k i r := ⟨fun _ => rfl, _, hm, hi⟩
    exact ⟨hs.replies_filter h hs ops hops, hs.replies_reached h ops hops⟩

/-- A component that counts and fails. -/
def tallyComponent : Component :=
  ⟨[("next", .function ⟨[], some (.int .u32)⟩ (some Body.count)),
      ("fail", .function ⟨[], none⟩ (some Body.trap))], 0, [], .ok ⟨0, 0⟩⟩

def tallyLoader : Loader := ⟨⟨fun _ => .ok tallyComponent⟩, none⟩

def tallyTable : ResourceTable :=
  ((ResourceTable.empty 0).createAll [⟨"tally.wasm", ⟨#[1]⟩⟩]).2

/-- A source that binds the file twice, and exports everything from one of the bindings and the
other one as a whole. -/
def tallySource : String :=
  "import a from '" ++ (Handle.mk 0).locator ++ "';\nimport b from '" ++ (Handle.mk 0).locator ++
    "';\nexport * from a;\nexport default b;\n"

def tallyLinkage : Linkage :=
  (Linkage.initial.bind "a" tallyComponent ⟨⟨0, 0⟩, false⟩).bind "b" tallyComponent ⟨⟨0, 0⟩, false⟩

def tallyModule : Module where
  graph := ((tallyLinkage.contribute (entities tallyLinkage.graph 1)).contribute
    [("default", .nested 2)]).graph
  instances := tallyLinkage.instances
  source := tallySource

theorem load_tallySource : Module.load tallyLoader tallySource tallyTable = .ok tallyModule := by
  have hparse : parse tallySource = .ok [.bind .static "a" (Handle.mk 0).locator,
      .bind .static "b" (Handle.mk 0).locator, .exportAll "a", .exportDefault "b"] := by
    decide +kernel
  have hresolve : tallyTable.resolve (Handle.mk 0).locator = some ⟨"tally.wasm", ⟨#[1]⟩⟩ :=
    ResourceTable.resolve_locator (by decide) List.mem_cons_self
  rw [Module.load, hparse]
  simp only [Loader.run, Loader.step, hresolve]
  rfl

def tallyRunner : Runner :=
  ⟨tallyTable, .runnable (Runnable.discover ⟨⟨#[1]⟩, "tally.wasm", by decide⟩ tallyModule []),
    .transpilationComplete, [], 1⟩

/-- Calls into both instances, and a run that finds nothing to enter. -/
def tallyCalls : List Operation :=
  [.call "default.next" "", .call "fail" "", .callWith "default.next" [], .run]

/-- A failure of one instance does not show in the other, although both are of one file. -/
theorem replies_of_tally :
    tallyRunner.repliesTo countingHost (tallyRunner.spares 1) tallyCalls =
      replies countingHost tallyRunner
        [.call "default.next" "", .callWith "default.next" [], .run] := by
  have hcalls : ∀ op ∈ tallyCalls, op.calls = true := by decide
  have hreplies := ((replies_of_one_instance countingHost (r := tallyRunner) load_tallySource rfl
    hcalls).2 1 ⟨⟨0, 0⟩, false⟩ rfl).1
  have hnext : tallyRunner.spares 1 (.call "default.next" "") = true := by decide +kernel
  have hfail : tallyRunner.spares 1 (.call "fail" "") = false := by decide +kernel
  have hnext' : tallyRunner.spares 1 (.callWith "default.next" []) = true := by decide +kernel
  have hrun : tallyRunner.spares 1 .run = true := by decide +kernel
  rw [hreplies]
  simp [tallyCalls, hnext, hfail, hnext', hrun]

end Runner

end ComponentHost
