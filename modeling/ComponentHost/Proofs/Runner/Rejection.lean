/-
# `ComponentHost.Proofs.Runner.Rejection` — what is turned away leaves no trace

Before the engine is entered, a call is looked at: is there such an export, are there as
many arguments as parameters, does each of them convert, can the function be entered.
What fails there is *turned away*; what fails later has run.

    turned away    unknownExport, argumentCount, argumentType, invalidFunction, and
                   unsupportedType where an argument is at fault
    has run        raised, runtimeException, and unsupportedType where the result is

The line runs through `unsupportedType`, so it is not drawn by the reply alone.  It is
where `prepare` fails (`turnsAway_iff_prepare`), and a call that is not prepared gives
the instances back as they are, the poisoned ones among them.  So all that is turned
away can be struck from a history, and nobody notices.

What is said to those who are turned away is fixed too: the number of the arguments
comes first, and then the first argument that does not convert.
-/
import ComponentHost.Component.Behaviour
import ComponentHost.Proofs.Interface.Reading
import ComponentHost.Proofs.Runner.Artifact
import ComponentHost.Proofs.Runner.History

namespace ComponentHost

/-! ## Errors of results -/

namespace Datum

mutual

theorem unsupported_of_encode : ∀ (d : Datum) {e : DecodeError},
    d.encode = .error e → ∃ text, e = .unsupported text
  | .bool _, e, h | .int _ _, e, h | .f32 _, e, h | .f64 _, e, h | .char _, e, h
  | .string _, e, h | .enum _, e, h | .flags _, e, h => by
      rw [encode] at h
      cases h
  | .list items, e, h | .tuple items, e, h => by
      rw [encode] at h
      exact unsupported_of_encodeItems items (Ty.map_eq_error h)
  | .record fields, e, h => by
      rw [encode] at h
      exact unsupported_of_encodeFields fields (Ty.map_eq_error h)
  | .variant _ payload, e, h | .option payload, e, h | .ok payload, e, h
  | .err payload, e, h => by
      rw [encode] at h
      exact unsupported_of_encodePayload payload (Ty.map_eq_error h)
  | .resource _, e, h | .async _ _, e, h => by
      rw [encode] at h
      exact ⟨_, (Except.error.inj h).symm⟩

theorem unsupported_of_encodeItems : ∀ (items : List Datum) {e : DecodeError},
    encodeItems items = .error e → ∃ text, e = .unsupported text
  | [], e, h => by
      rw [encodeItems] at h
      cases h
  | d :: items, e, h => by
      rw [encodeItems] at h
      rcases Ty.bind_eq_error h with hd | ⟨j, -, h⟩
      · exact unsupported_of_encode d hd
      · rcases Ty.bind_eq_error h with hitems | ⟨js, -, h⟩
        · exact unsupported_of_encodeItems items hitems
        · cases h

theorem unsupported_of_encodeFields : ∀ (fields : List (String × Datum)) {e : DecodeError},
    encodeFields fields = .error e → ∃ text, e = .unsupported text
  | [], e, h => by
      rw [encodeFields] at h
      cases h
  | (name, d) :: fields, e, h => by
      rw [encodeFields] at h
      rcases Ty.bind_eq_error h with hd | ⟨j, -, h⟩
      · exact unsupported_of_encode d hd
      · rcases Ty.bind_eq_error h with hfields | ⟨js, -, h⟩
        · exact unsupported_of_encodeFields fields hfields
        · cases h

theorem unsupported_of_encodePayload : ∀ (payload : Option Datum) {e : DecodeError},
    encodePayload payload = .error e → ∃ text, e = .unsupported text
  | none, e, h => by
      rw [encodePayload] at h
      cases h
  | some d, e, h => by
      rw [encodePayload] at h
      exact unsupported_of_encode d (Ty.map_eq_error h)

end

end Datum

namespace BoundFunction

variable {f : BoundFunction} {args : List Json} {instances : List Instance} {e : InvocationError}

theorem unsupported_of_encodeResult {d : Datum} (h : encodeResult d = .error e) :
    ∃ text, e = .unsupportedType text := by
  rw [encodeResult] at h
  split at h
  · cases h
  · rename_i e' he
    obtain ⟨text, rfl⟩ := Datum.unsupported_of_encode d he
    exact ⟨text, (Except.error.inj h).symm⟩

theorem raised_or_unsupported_of_answer {result : Option Datum} (h : answer result = .error e) :
    (∃ text, e = .raised text) ∨ ∃ text, e = .unsupportedType text := by
  rw [answer.eq_def] at h
  split at h
  · cases h
  · exact .inl ⟨"err", (Except.error.inj h).symm⟩
  · split at h
    · exact .inl ⟨_, (Except.error.inj h).symm⟩
    · rename_i hd
      exact .inr (unsupported_of_encodeResult (hd.trans h))
  · cases h
  · exact .inr (unsupported_of_encodeResult h)
  · exact .inr (unsupported_of_encodeResult h)

/-! ## The order of the tests -/

/-- The argument in place `k` is the first that does not convert, and `e` says why. -/
structure FirstMisfit (types : List Ty) (args : List Json) (k : Nat) (e : DecodeError) : Prop where
  misfit : ∃ ty j, types[k]? = some ty ∧ args[k]? = some j ∧ ty.decode j = .error e
  before : ∀ i < k, ∀ ty j, types[i]? = some ty → args[i]? = some j → ∃ d, ty.decode j = .ok d

section Order

variable {ty : Ty} {types : List Ty} {j : Json} {k : Nat} {e : DecodeError}

theorem FirstMisfit.head (h : ty.decode j = .error e) :
    FirstMisfit (ty :: types) (j :: args) 0 e where
  misfit := ⟨ty, j, rfl, rfl, h⟩
  before := fun i hi => absurd hi (Nat.not_lt_zero i)

theorem FirstMisfit.eq_zero {e' : DecodeError} (h : ty.decode j = .error e')
    (hk : FirstMisfit (ty :: types) (j :: args) k e) : k = 0 ∧ e = e' := by
  cases k with
  | zero =>
    obtain ⟨ty', j', hty, hj, he⟩ := hk.misfit
    cases hty
    cases hj
    exact ⟨rfl, Except.error.inj (he.symm.trans h)⟩
  | succ k =>
    obtain ⟨d, hd⟩ := hk.before 0 (Nat.succ_pos k) ty j rfl rfl
    cases hd.symm.trans h

theorem FirstMisfit.tail {d : Datum} (h : ty.decode j = .ok d)
    (hk : FirstMisfit (ty :: types) (j :: args) k e) :
    ∃ k', k = k' + 1 ∧ FirstMisfit types args k' e := by
  cases k with
  | zero =>
    obtain ⟨ty', j', hty, hj, he⟩ := hk.misfit
    cases hty
    cases hj
    cases h.symm.trans he
  | succ k =>
    refine ⟨k, rfl, ⟨hk.misfit, ?_⟩⟩
    intro i hi
    exact hk.before (i + 1) (Nat.succ_lt_succ hi)

theorem FirstMisfit.cons {d : Datum} (h : ty.decode j = .ok d)
    (hk : FirstMisfit types args k e) : FirstMisfit (ty :: types) (j :: args) (k + 1) e where
  misfit := hk.misfit
  before := by
    intro i hi ty' j' hty hj
    cases i with
    | zero =>
      cases hty
      cases hj
      exact ⟨d, h⟩
    | succ i => exact hk.before i (Nat.lt_of_succ_lt_succ hi) ty' j' hty hj

/-- Arguments are not converted because of the first that does not convert. -/
theorem convertFrom_eq_error_iff {error : InvocationError} :
    ∀ {index : Nat} {types : List Ty} {args : List Json},
      convertFrom index types args = .error error ↔
        ∃ k e, FirstMisfit types args k e ∧ error = .ofDecode (index + k) e := by
  intro index types
  induction types generalizing index with
  | nil =>
    intro args
    constructor
    · intro h
      cases h
    · rintro ⟨k, e, hk, -⟩
      obtain ⟨ty, j, hty, -, -⟩ := hk.misfit
      cases hty
  | cons ty types ih =>
    intro args
    cases args with
    | nil =>
      constructor
      · intro h
        cases h
      · rintro ⟨k, e, hk, -⟩
        obtain ⟨ty, j, -, hj, -⟩ := hk.misfit
        cases hj
    | cons j args =>
      rw [convertFrom]
      cases hd : ty.decode j with
      | error e =>
        constructor
        · intro h
          exact ⟨0, e, .head hd, (Except.error.inj h).symm⟩
        · rintro ⟨k, e', hk, rfl⟩
          obtain ⟨rfl, rfl⟩ := hk.eq_zero hd
          rfl
      | ok d =>
        constructor
        · intro h
          obtain ⟨k, e, hk, rfl⟩ := ih.mp (Ty.map_eq_error h)
          exact ⟨k + 1, e, hk.cons hd, by rw [Nat.add_right_comm, Nat.add_assoc]⟩
        · rintro ⟨k, e, hk, rfl⟩
          obtain ⟨k', rfl, htail⟩ := hk.tail hd
          have hrest : convertFrom (index + 1) types args =
              .error (.ofDecode (index + (k' + 1)) e) :=
            ih.mpr ⟨k', e, htail, by rw [Nat.add_right_comm, Nat.add_assoc]⟩
          rw [hrest]
          rfl

end Order

/-- **The number of the arguments is looked at first, and then the arguments in their order.** -/
theorem convert_eq_error_iff :
    f.convert args = .error e ↔
      (args.length ≠ f.signature.params.length ∧
          e = .argumentCount f.signature.params.length args.length) ∨
        args.length = f.signature.params.length ∧
          ∃ k cause, FirstMisfit (f.signature.params.map (·.2)) args k cause ∧
            e = .ofDecode k cause := by
  rw [convert]
  simp only [List.length_map]
  by_cases hlen : args.length = f.signature.params.length
  · rw [if_pos hlen.symm, convertFrom_eq_error_iff]
    simp [hlen]
  · rw [if_neg (Ne.symm hlen)]
    simp [hlen, eq_comm]

/-! ## Before and behind the engine -/

theorem call_of_prepare_error (h : f.prepare args = .error e) :
    f.call args instances = (.error e, instances) := by
  rw [call, h]

theorem convert_of_prepare {body : Body} {data : List Datum}
    (h : f.prepare args = .ok (body, data)) : f.convert args = .ok data := by
  rw [prepare] at h
  split at h
  · cases h
  · split at h
    · cases h
      assumption
    · cases h

theorem prepare_eq_error_iff :
    f.prepare args = .error e ↔
      f.convert args = .error e ∨
        (∃ data, f.convert args = .ok data) ∧ f.body = none ∧ e = .invalidFunction f.name := by
  rw [prepare]
  cases f.convert args with
  | error e' => simp
  | ok data =>
    cases f.body with
    | none => simp [eq_comm]
    | some body => simp

/-- A call that fails after it was prepared has failed in the engine, or by its result. -/
theorem error_of_prepared {body : Body} {data : List Datum} (h : f.prepare args = .ok (body, data))
    (he : (f.call args instances).1 = .error e) :
    (∃ error, e = .runtimeException error) ∨ (∃ text, e = .raised text) ∨
      ∃ text, e = .unsupportedType text := by
  rw [call, h] at he
  simp only at he
  split at he
  · exact .inl ⟨_, (Except.error.inj he).symm⟩
  · split at he
    · exact .inr (raised_or_unsupported_of_answer he)
    · exact .inl ⟨_, (Except.error.inj he).symm⟩

/-- A result without a JSON form is told with the same error as such an argument, but the function
has run by then. -/
example : (⟨0, [], "give", ⟨[], some (.own "r")⟩, some Body.own⟩ : BoundFunction).call []
    [⟨⟨0, 0⟩, false⟩] = (.error (.unsupportedType "resource"), [⟨⟨0, 1⟩, false⟩]) := rfl

end BoundFunction

/-! ## What is turned away -/

def Reply.error? : Reply → Option InvocationError
  | .call (.error e) | .run (some (.error e)) => some e
  | _ => none

namespace Runner

/-- The error that the arguments of a call or a run give when they are converted. -/
def argumentError? (r : Runner) (op : Operation) : Option InvocationError :=
  (r.target? op).bind fun x =>
    match x.1.convert x.2 with
    | .error e => some e
    | .ok _ => none

/-- The operation fails, and by its error it does so before the engine is entered. -/
def turnsAway (h : Host) (r : Runner) (op : Operation) : Bool :=
  match (r.step h op).1.error? with
  | some (.unknownExport _) | some (.argumentCount _ _) | some (.argumentType _ _ _)
  | some (.invalidFunction _) => true
  | some (.unsupportedType type) => r.argumentError? op == some (.unsupportedType type)
  | _ => false

/-- The operations of a history that are not turned away, each with its reply. -/
def admitted (h : Host) : Runner → List Operation → List (Operation × Reply)
  | _, [] => []
  | r, op :: ops =>
    if r.turnsAway h op then admitted h (r.step h op).2 ops
    else (op, (r.step h op).1) :: admitted h (r.step h op).2 ops

variable {h : Host} {r r' : Runner} {op : Operation} {f : BoundFunction} {args : List Json}

theorem argumentError?_of_target (ht : r.target? op = some (f, args)) {data : List Datum}
    (hdata : f.convert args = .ok data) : r.argumentError? op = none := by
  rw [argumentError?, ht, Option.bind_some, hdata]

theorem exists_error_of_turnsAway (h : Host) {r : Runner} {op : Operation}
    (hturn : r.turnsAway h op = true) : ∃ e, (r.step h op).1.error? = some e := by
  rw [turnsAway] at hturn
  cases he : (r.step h op).1.error? with
  | some e => exact ⟨e, rfl⟩
  | none =>
    rw [he] at hturn
    cases hturn

theorem error?_answered (hc : op.calls = true) (answer : Answer) :
    (op.answered (some answer)).error? =
      match answer with
      | .error e => some e
      | .ok _ => none := by
  cases op with
  | call name text => cases answer <;> rfl
  | callWith name args => cases answer <;> rfl
  | run => cases answer <;> rfl
  | _ => cases hc

theorem calls_of_target (ht : r.target? op = some (f, args)) : op.calls = true := by
  cases op with
  | call name text => rfl
  | callWith name args => rfl
  | run => rfl
  | _ => cases ht

theorem step_of_target (h : Host) {m : Runnable} (hm : r.state.runnable? = some m)
    (ht : r.target? op = some (f, args)) :
    (r.step h op).1 = op.answered (some (f.call args m.module.instances).1) ∧
      (r.step h op).2.state.runnable? = some (m.enter f args).2 := by
  rcases (step_move h r op).of_calls (calls_of_target ht) with
    ⟨m', f', args', hm', ht', hreply, hnext⟩ | ⟨ht', -, -⟩
  · cases hm.symm.trans hm'
    cases ht.symm.trans ht'
    exact ⟨hreply, hnext⟩
  · cases ht.symm.trans ht'

/-- **The line between the two groups.**  Of the operations that find a function, those are turned
away whose call is not prepared. -/
theorem turnsAway_iff_prepare (h : Host) {m : Runnable} (hm : r.state.runnable? = some m)
    (ht : r.target? op = some (f, args)) :
    r.turnsAway h op = true ↔ ∃ e, f.prepare args = .error e := by
  have herror := error?_answered (calls_of_target ht) (f.call args m.module.instances).1
  rw [turnsAway, (step_of_target h hm ht).1, herror]
  cases hp : f.prepare args with
  | error e =>
    rw [BoundFunction.call_of_prepare_error hp]
    simp only [Except.error.injEq, exists_eq', iff_true]
    rcases BoundFunction.prepare_eq_error_iff.mp hp with hconvert | ⟨-, -, rfl⟩
    · have hargs : r.argumentError? op = some e := by
        rw [argumentError?, ht, Option.bind_some, hconvert]
      rcases BoundFunction.convert_eq_error_iff.mp hconvert with ⟨-, rfl⟩ | ⟨-, k, cause, -, rfl⟩
      · rfl
      · cases cause with
        | mismatch expected found => rfl
        | unsupported type => exact beq_iff_eq.mpr hargs
    · rfl
  | ok x =>
    obtain ⟨body, data⟩ := x
    have hargs : r.argumentError? op = none :=
      argumentError?_of_target ht (BoundFunction.convert_of_prepare hp)
    cases hcall : (f.call args m.module.instances).1 with
    | ok j => simp
    | error e =>
      rcases BoundFunction.error_of_prepared hp hcall with
        ⟨error, rfl⟩ | ⟨text, rfl⟩ | ⟨text, rfl⟩
      · simp
      · simp
      · simp [hargs]

theorem sameCourse_of_turnsAway (h : Host) (hturn : r.turnsAway h op = true) :
    SameCourse r (r.step h op).2 := by
  obtain ⟨e, he⟩ := exists_error_of_turnsAway h hturn
  have hmove := step_move h r op
  generalize (r.step h op).1 = reply at hmove he
  generalize (r.step h op).2 = r' at hmove ⊢
  cases hmove with
  | noted _ _ _ => exact ⟨rfl, rfl, rfl⟩
  | @entered _ m f args notes hs ht =>
    have hm : r.state.runnable? = some m := by rw [hs]; rfl
    obtain ⟨e, hp⟩ := (turnsAway_iff_prepare h hm ht).mp hturn
    have hcall : f.call args m.module.instances = (.error e, m.module.instances) :=
      BoundFunction.call_of_prepare_error hp
    refine ⟨?_, rfl, rfl⟩
    simp only [Runnable.enter, Callable.call, hcall, hs]
  | _ => cases he

theorem replies_admitted (h : Host) : ∀ (r : Runner) (ops : List Operation),
    replies h r ((r.admitted h ops).map (·.1)) = (r.admitted h ops).map (·.2) := by
  intro r ops
  induction ops generalizing r with
  | nil => rfl
  | cons op ops ih =>
    rw [admitted]
    split
    · rename_i hturn
      -- what is left is judged and answered by a runner of the same course
      rw [← ih, (sameCourse_of_turnsAway h hturn).replies]
    · rw [List.map_cons, List.map_cons, replies, ih]

/-- **What is turned away leaves no trace.**  From any runner, whatever has been trapped in it,
strike from a history all operations that are turned away before the engine is entered: the rest is
answered as before.  A call is answered as the function that it finds answers, and what that says
to those it turns away is fixed: a wrong number of arguments is told as such, whatever they are;
else the first that does not convert is told, and there is one unless all convert. -/
theorem replies_without_turned_away (h : Host) (r : Runner) (ops : List Operation) :
    replies h r ((r.admitted h ops).map (·.1)) = (r.admitted h ops).map (·.2) ∧
      (∀ m op f args, r.state.runnable? = some m → r.target? op = some (f, args) →
        (r.step h op).1 = op.answered (some (f.call args m.module.instances).1)) ∧
      ∀ (f : BoundFunction) (args : List Json) (instances : List Instance),
        let params := f.signature.params
        (args.length ≠ params.length →
          f.call args instances = (.error (.argumentCount params.length args.length), instances)) ∧
        (args.length = params.length →
          (∀ k e, BoundFunction.FirstMisfit (params.map (·.2)) args k e →
            f.call args instances = (.error (.ofDecode k e), instances)) ∧
          ((∃ k e, BoundFunction.FirstMisfit (params.map (·.2)) args k e) ∨
            ∃ data, f.convert args = .ok data)) := by
  refine ⟨replies_admitted h r ops, ?_, ?_⟩
  · intro m op f args hm ht
    exact (step_of_target h hm ht).1
  · intro f args instances params
    refine ⟨?_, ?_⟩
    · intro hlen
      exact BoundFunction.call_of_prepare_error (BoundFunction.prepare_eq_error_iff.mpr
        (.inl (BoundFunction.convert_eq_error_iff.mpr (.inl ⟨hlen, rfl⟩))))
    · intro hlen
      refine ⟨?_, ?_⟩
      · intro k e hk
        exact BoundFunction.call_of_prepare_error (BoundFunction.prepare_eq_error_iff.mpr
          (.inl (BoundFunction.convert_eq_error_iff.mpr (.inr ⟨hlen, k, e, hk, rfl⟩))))
      · cases hconvert : f.convert args with
        | ok data => exact .inr ⟨data, rfl⟩
        | error e =>
          rcases BoundFunction.convert_eq_error_iff.mp hconvert with ⟨hne, -⟩ | ⟨-, k, e, hk, -⟩
          · exact absurd hlen hne
          · exact .inl ⟨k, e, hk⟩

end Runner

end ComponentHost
