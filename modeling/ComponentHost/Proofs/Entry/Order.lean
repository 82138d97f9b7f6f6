/-
# `ComponentHost.Proofs.Entry.Order` — statements that are in order

What can be wrong with statements is said of their list, without evaluating any of them:

    `Accepts`    no name is bound twice, each locator is that of a live handle whose
                 component can be instantiated, and what is exported was bound before
    `Fault`      what is wrong with one statement, given those before it

The two fit together, statement by statement: statements stay in order as long as nothing
is wrong with the next one, and something is wrong with the next one unless they do.
-/
import ComponentHost.Entry.Module
import ComponentHost.Proofs.Resource.Table

namespace ComponentHost

namespace Entry

/-! ## Names -/

def Statement.binds? : Statement → Option String
  | .bind _ binding _ => some binding
  | _ => none

def Statement.exports? : Statement → Option String
  | .exportAll binding | .exportDefault binding => some binding
  | _ => none

theorem Statement.bind_or_exports (s : Statement) :
    (∃ form binding locator, s = .bind form binding locator) ∨
      ∃ binding, s.exports? = some binding := by
  cases s with
  | bind form binding locator => exact .inl ⟨form, binding, locator, rfl⟩
  | exportAll binding => exact .inr ⟨binding, rfl⟩
  | exportDefault binding => exact .inr ⟨binding, rfl⟩

def boundNames (ss : List Statement) : List String :=
  ss.filterMap Statement.binds?

theorem boundNames_concat (ss : List Statement) (s : Statement) :
    boundNames (ss ++ [s]) = boundNames ss ++ s.binds?.toList := by
  rw [boundNames, boundNames, List.filterMap_append]
  cases s <;> rfl

theorem declared_concat {ss : List Statement} {s : Statement}
    (h : ∀ s ∈ ss, ∀ binding, s.exports? = some binding → binding ∈ boundNames ss)
    (hs : ∀ binding, s.exports? = some binding → binding ∈ boundNames ss) :
    ∀ s' ∈ ss ++ [s], ∀ binding, s'.exports? = some binding → binding ∈ boundNames (ss ++ [s]) := by
  intro s' hs' binding hexports
  rw [boundNames_concat]
  refine List.mem_append_left _ ?_
  rcases List.mem_append.mp hs' with hs' | hs'
  · exact h s' hs' binding hexports
  · obtain rfl := List.mem_singleton.mp hs'
    exact hs binding hexports

/-! ## Order and fault -/

namespace Loader

/-- The locator is that of a live handle, and the component behind it can be instantiated. -/
def Reaches (l : Loader) (table : ResourceTable) (locator : String) : Prop :=
  (∃ H ∈ table.handles, H.locator = locator) ∧
    ∃ r x, table.resolve locator = some r ∧ l.instantiate r = .ok x

/-- Nothing is wrong with the statements. -/
structure Accepts (l : Loader) (table : ResourceTable) (ss : List Statement) : Prop where
  distinct : (boundNames ss).Nodup
  live : ∀ form binding locator, .bind form binding locator ∈ ss → l.Reaches table locator
  declared : ∀ before s after binding, ss = before ++ s :: after → s.exports? = some binding →
    binding ∈ boundNames before

/-- What is wrong with a statement that comes after others. -/
inductive Fault (l : Loader) (table : ResourceTable) (before : List Statement) :
    Statement → LoadError → Prop
  | duplicate {form : ImportForm} {binding locator : String} : binding ∈ boundNames before →
      Fault l table before (.bind form binding locator) (.duplicate binding)
  | unresolved {form : ImportForm} {binding locator : String} : binding ∉ boundNames before →
      (∀ H ∈ table.handles, H.locator ≠ locator) →
      Fault l table before (.bind form binding locator) (.unresolved locator)
  | instantiation {form : ImportForm} {binding locator : String} {r : Resource}
      {error : EngineError} : binding ∉ boundNames before → table.resolve locator = some r →
      l.instantiate r = .error (.instantiation r.filename error) →
      Fault l table before (.bind form binding locator) (.instantiation r.filename error)
  | undefined {s : Statement} {binding : String} : s.exports? = some binding →
      binding ∉ boundNames before → Fault l table before s (.undefined binding)

variable {l : Loader} {table : ResourceTable} {ss : List Statement} {s : Statement}
  {e : LoadError}

theorem exists_of_instantiate_eq_error {r : Resource} (h : l.instantiate r = .error e) :
    ∃ error, e = .instantiation r.filename error := by
  rw [instantiate] at h
  split at h
  · exact ⟨_, (Except.error.inj h).symm⟩
  · split at h
    · exact ⟨_, (Except.error.inj h).symm⟩
    · cases h

theorem Accepts.nil (l : Loader) (table : ResourceTable) : l.Accepts table [] where
  distinct := .nil
  live := by
    intro form binding locator h
    cases h
  declared := by
    intro before s after binding h
    cases before <;> cases h

/-- A locator that is no live handle's stands for nothing, and any other stands for something. -/
theorem exists_live {locator : String} {r : Resource} (h : table.resolve locator = some r) :
    ∃ H ∈ table.handles, H.locator = locator := by
  by_contra hnone
  have hdead : ∀ H ∈ table.handles, H.locator ≠ locator := by
    intro H hH heq
    exact hnone ⟨H, hH, heq⟩
  rw [ResourceTable.resolve_eq_none_iff.mpr hdead] at h
  cases h

theorem reaches_or_fault (l : Loader) (table : ResourceTable) {binding : String}
    (hnew : binding ∉ boundNames ss) (form : ImportForm) (locator : String) :
    l.Reaches table locator ∨ ∃ e, l.Fault table ss (.bind form binding locator) e := by
  cases hr : table.resolve locator with
  | none => exact .inr ⟨_, .unresolved hnew (ResourceTable.resolve_eq_none_iff.mp hr)⟩
  | some r =>
    cases hi : l.instantiate r with
    | ok x => exact .inl ⟨exists_live hr, r, x, hr, hi⟩
    | error e =>
      obtain ⟨error, rfl⟩ := exists_of_instantiate_eq_error hi
      exact .inr ⟨_, .instantiation hnew hr hi⟩

theorem Accepts.not_fault {after : List Statement} (h : l.Accepts table (ss ++ s :: after))
    (e : LoadError) : ¬ l.Fault table ss s e := by
  intro hfault
  cases hfault with
  | @duplicate form binding locator hold =>
    have hnodup := h.distinct
    rw [boundNames, List.filterMap_append] at hnodup
    exact (List.nodup_append.mp hnodup).2.2 _ hold _ List.mem_cons_self rfl
  | @unresolved form binding locator _ hdead =>
    obtain ⟨⟨H, hH, heq⟩, -⟩ :=
      h.live form binding locator (List.mem_append_right _ List.mem_cons_self)
    exact hdead H hH heq
  | @instantiation form binding locator r error _ hr hi =>
    obtain ⟨-, r', x, hr', hi'⟩ :=
      h.live form binding locator (List.mem_append_right _ List.mem_cons_self)
    cases hr.symm.trans hr'
    cases hi.symm.trans hi'
  | undefined hexports hnew => exact hnew (h.declared ss s after _ rfl hexports)

theorem Accepts.left {after : List Statement} (h : l.Accepts table (ss ++ after)) :
    l.Accepts table ss where
  distinct := by
    have hnodup := h.distinct
    rw [boundNames, List.filterMap_append] at hnodup
    exact (List.nodup_append.mp hnodup).1
  live := by
    intro form binding locator hmem
    exact h.live form binding locator (List.mem_append_left _ hmem)
  declared := by
    rintro before s later binding rfl hexports
    refine h.declared before s (later ++ after) binding ?_ hexports
    rw [List.append_assoc, List.cons_append]

theorem Accepts.concat (h : l.Accepts table ss) (hfault : ∀ e, ¬ l.Fault table ss s e) :
    l.Accepts table (ss ++ [s]) where
  distinct := by
    rw [boundNames_concat]
    cases s with
    | bind form binding locator =>
      refine List.nodup_append.mpr ⟨h.distinct, List.nodup_singleton _, ?_⟩
      rintro a ha b hb rfl
      exact hfault _ (.duplicate (List.mem_singleton.mp hb ▸ ha))
    | exportAll binding => simpa [Statement.binds?] using h.distinct
    | exportDefault binding => simpa [Statement.binds?] using h.distinct
  live := by
    intro form binding locator hmem
    rcases List.mem_append.mp hmem with hmem | hmem
    · exact h.live form binding locator hmem
    · obtain rfl := List.mem_singleton.mp hmem
      have hnew : binding ∉ boundNames ss := by
        intro hold
        exact hfault _ (.duplicate hold)
      exact (reaches_or_fault l table hnew form locator).resolve_right fun ⟨e, he⟩ => hfault e he
  declared := by
    intro before s' after binding heq hexports
    rcases List.eq_nil_or_concat after with rfl | ⟨after, last, rfl⟩
    · obtain ⟨rfl, hs⟩ := List.append_inj' heq rfl
      obtain rfl := List.singleton_injective hs
      by_contra hnew
      exact hfault _ (.undefined hexports hnew)
    · rw [List.concat_eq_append, ← List.cons_append, ← List.append_assoc] at heq
      obtain ⟨rfl, -⟩ := List.append_inj' heq rfl
      exact h.declared before s' after binding rfl hexports

end Loader

end Entry

end ComponentHost
