/-
# `ComponentHost.Proofs.Namespace.Relabel` — a base in front of the paths

A walk can be given a base, which is put in front of all paths.  Where the walk goes does not
depend on it: each stretch finds the same callables by the same keys, whatever the path is that
it starts with (`Blind`).  So two walks with different bases list the same, and only the paths
are written differently:

    keys          without a base    with the base `b`
    f             f                 b.f
    a   f         a.f               b.a.f
    a   ""  f     a..f              b.a..f
    ""  f         f                 b..f

The last line is the one where the two do not agree.  A key is put after a dot only if something
stands before it, and behind empty keys nothing does; so a path without a base says nothing of
the empty keys that its way starts with, and a path with a base has a dot for each.

No accessor is excluded here: it may also make a namespace each time it is read.
-/
import ComponentHost.Proofs.Namespace.Walk

namespace ComponentHost

/-! ## Paths behind a base -/

theorem foldl_memberPath_of_ne {path : String} (hpath : path ≠ "") {keys : List String}
    (hkeys : keys ≠ []) : keys.foldl memberPath path = path ++ "." ++ ".".intercalate keys := by
  have hmember : ∀ {path : String}, path ≠ "" → ∀ key, memberPath path key = path ++ "." ++ key :=
    fun hpath key => if_neg (by simpa using hpath)
  induction keys generalizing path with
  | nil => exact absurd rfl hkeys
  | cons key keys ih =>
    rw [List.foldl_cons, hmember hpath]
    cases keys with
    | nil => rw [List.foldl_nil, String.intercalate_singleton]
    | cons key' keys =>
      have hne : path ++ "." ++ key ≠ "" := by simp
      rw [ih hne (List.cons_ne_nil _ _), String.intercalate_cons_cons]
      simp only [String.append_assoc]

/-- Without a path in front, empty keys leave no trace until one comes that is not. -/
theorem foldl_memberPath_empty (way : List String) (key : String) :
    (way ++ [key]).foldl memberPath "" =
      ".".intercalate (way.dropWhile String.isEmpty ++ [key]) := by
  induction way with
  | nil =>
    rw [List.dropWhile_nil, List.nil_append, String.intercalate_singleton]
    rfl
  | cons k way ih =>
    by_cases hk : k = ""
    · subst hk
      exact ih
    · have hfirm : k.isEmpty = false := by simpa using hk
      have hne : way ++ [key] ≠ [] := List.append_ne_nil_of_right_ne_nil _ (List.cons_ne_nil _ _)
      have hfirst : memberPath "" k = k := rfl
      rw [List.dropWhile_cons_of_neg (by simp [hfirm]), List.cons_append, List.foldl_cons, hfirst,
        foldl_memberPath_of_ne hk hne, String.intercalate_cons_of_ne_nil hne]

theorem exists_intercalate_dropWhile (way : List String) (key : String) :
    ∃ dots, ".".intercalate (way ++ [key]) =
      dots ++ ".".intercalate (way.dropWhile String.isEmpty ++ [key]) := by
  induction way with
  | nil => exact ⟨"", String.empty_append.symm⟩
  | cons k way ih =>
    by_cases hk : k = ""
    · subst hk
      obtain ⟨dots, hdots⟩ := ih
      refine ⟨"." ++ dots, ?_⟩
      have hne : way ++ [key] ≠ [] := List.append_ne_nil_of_right_ne_nil _ (List.cons_ne_nil _ _)
      rw [List.cons_append, String.intercalate_cons_of_ne_nil hne, hdots, String.empty_append,
        String.append_assoc]
      rfl
    · have hfirm : k.isEmpty = false := by simpa using hk
      refine ⟨"", ?_⟩
      rw [List.dropWhile_cons_of_neg (by simp [hfirm]), String.empty_append]

theorem intercalate_dropWhile_eq_iff (way : List String) (key : String) :
    ".".intercalate (way ++ [key]) = ".".intercalate (way.dropWhile String.isEmpty ++ [key]) ↔
      way.head? ≠ some "" := by
  cases way with
  | nil => simp
  | cons k way =>
    by_cases hk : k = ""
    · subst hk
      refine iff_of_false ?_ (fun h => h rfl)
      intro heq
      have hne : way ++ [key] ≠ [] := List.append_ne_nil_of_right_ne_nil _ (List.cons_ne_nil _ _)
      obtain ⟨dots, hdots⟩ := exists_intercalate_dropWhile way key
      have hlength := congrArg String.length heq
      rw [List.cons_append, String.intercalate_cons_of_ne_nil hne, hdots,
        List.dropWhile_cons_of_pos rfl] at hlength
      simp only [String.length_append] at hlength
      have hdot : ".".length = 1 := rfl
      omega
    · have hfirm : k.isEmpty = false := by simpa using hk
      rw [List.dropWhile_cons_of_neg (by simp [hfirm])]
      exact iff_of_true rfl (by simpa using hk)

/-! ## What is found -/

/-- A callable that a walk finds: the keys of the namespaces on the way, and its own key. -/
structure Find (α : Type) where
  way : List String
  key : String
  target : α

namespace Find

variable {α : Type}

/-- All keys that lead to it. -/
def keys (f : Find α) : List String := f.way ++ [f.key]

/-- The export that a walk makes of it when `path` leads to where the way starts. -/
def listed (path : String) (f : Find α) : Export α :=
  ⟨f.keys.foldl memberPath path, displayName f.key, f.target⟩

/-- The same callable, from one namespace further back. -/
def under (key : String) (f : Find α) : Find α :=
  { f with way := key :: f.way }

theorem listed_of_ne {base : String} (hbase : base ≠ "") (f : Find α) :
    f.listed base = ⟨base ++ "." ++ ".".intercalate f.keys, displayName f.key, f.target⟩ := by
  have hkeys : f.keys ≠ [] := List.append_ne_nil_of_right_ne_nil _ (List.cons_ne_nil _ _)
  rw [listed, foldl_memberPath_of_ne hbase hkeys]

theorem listed_empty (f : Find α) :
    f.listed "" = ⟨".".intercalate (f.way.dropWhile String.isEmpty ++ [f.key]), displayName f.key,
      f.target⟩ := by
  rw [listed, keys, foldl_memberPath_empty]

/-- The path without a base, with the base and a dot in front, is the path with the base just when
no empty key comes first. -/
theorem relabelled_iff {base : String} (hbase : base ≠ "") (f : Find α) :
    f.listed base = { f.listed "" with path := base ++ "." ++ (f.listed "").path } ↔
      f.way.head? ≠ some "" := by
  rw [f.listed_of_ne hbase, f.listed_empty, ← intercalate_dropWhile_eq_iff f.way f.key, keys]
  simp

end Find

namespace Graph

variable {α : Type} {g : Graph α}

/-- The keys lead from what was read to the callable, through members that are followed. -/
inductive Reaches (g : Graph α) : Reading α → List String → α → Prop
  | here (f : α) : Reaches g (.entity (.callable f)) [] f
  | into {id : NamespaceId} {key : String} {m : Member α} {keys : List String} {f : α} :
      (key, m) ∈ g.members id → key ∉ skippedKeys → Reaches g m.read keys f →
        Reaches g (.entity (.nested id)) (key :: keys) f
  | within {made : List (String × Entity α)} {key : String} {e : Entity α} {keys : List String}
      {f : α} : (key, e) ∈ made → key ∉ skippedKeys → Reaches g (.entity e) keys f →
        Reaches g (.fresh made) (key :: keys) f

/-! ## Stretches of a walk -/

/-- A stretch of a walk below `start` that does not look at the path: for all paths it finds the
same and enters the same. -/
def Blind (g : Graph α) (start : Reading α) (stretch : String → Trail α → Trail α) : Prop :=
  ∀ entered, ∃ (finds : List (Find α)) (entered' : List NamespaceId),
    (∀ f ∈ finds, g.Reaches start f.keys f.target) ∧
      ∀ path found,
        stretch path ⟨found, entered⟩ = ⟨found ++ finds.map (Find.listed path), entered'⟩

namespace Blind

variable {start start' : Reading α} {stretch stretch' : String → Trail α → Trail α}

theorem congr (h : g.Blind start stretch) (heq : ∀ path t, stretch' path t = stretch path t) :
    g.Blind start stretch' := by
  obtain rfl : stretch' = stretch := funext fun path => funext (heq path)
  exact h

theorem idle (g : Graph α) (start : Reading α) : g.Blind start fun _ t => t :=
  fun entered => ⟨[], entered, fun _ hf => absurd hf List.not_mem_nil,
    fun _ found => by rw [List.map_nil, List.append_nil]⟩

theorem trans (h : g.Blind start stretch) (h' : g.Blind start stretch') :
    g.Blind start fun path t => stretch' path (stretch path t) := by
  intro entered
  obtain ⟨finds, entered', hreach, hstretch⟩ := h entered
  obtain ⟨finds', entered'', hreach', hstretch'⟩ := h' entered'
  refine ⟨finds ++ finds', entered'', List.forall_mem_append.mpr ⟨hreach, hreach'⟩, ?_⟩
  intro path found
  simp only [hstretch, hstretch', List.map_append, List.append_assoc]

/-- What is found below a member is found below where the member stands. -/
theorem under {key : String} (h : g.Blind start stretch)
    (hmember : ∀ keys f, g.Reaches start keys f → g.Reaches start' (key :: keys) f) :
    g.Blind start' fun path => stretch (memberPath path key) := by
  intro entered
  obtain ⟨finds, entered', hreach, hstretch⟩ := h entered
  refine ⟨finds.map (Find.under key), entered', ?_, ?_⟩
  · intro f hf
    obtain ⟨f', hf', rfl⟩ := List.mem_map.mp hf
    exact hmember _ _ (hreach f' hf')
  · intro path found
    simp only [hstretch, List.map_map]
    rfl

theorem callable {key : String} {f : α} (h : g.Reaches start [key] f) :
    g.Blind start fun path t =>
      { t with found := t.found ++ [⟨memberPath path key, displayName key, f⟩] } :=
  fun entered => ⟨[⟨[], key, f⟩], entered, List.forall_mem_singleton.mpr h, fun _ _ => rfl⟩

end Blind

/-! ## The walk -/

theorem walkEntities_cons (visit : NamespaceId → String → Trail α → Trail α) (path : String)
    (x : String × Entity α) (es : List (String × Entity α)) (t : Trail α) :
    walkEntities visit path (x :: es) t =
      walkEntities visit path es (walkEntities visit path [x] t) := by
  obtain ⟨key, e⟩ := x
  cases hskip : skippedKeys.contains key with
  | true => simp only [walkEntities, hskip, if_true]
  | false => cases e <;> simp only [walkEntities, hskip, Bool.false_eq_true, if_false]

section Members

variable {visit : NamespaceId → String → Trail α → Trail α}
  (hvisit : ∀ id, g.Blind (.entity (.nested id)) (visit id))
include hvisit

theorem blind_entity {start : Reading α} {key : String} {e : Entity α}
    (hmember : key ∉ skippedKeys → ∀ keys f, g.Reaches (.entity e) keys f →
      g.Reaches start (key :: keys) f) :
    g.Blind start fun path => walkEntities visit path [(key, e)] := by
  by_cases hkey : key ∈ skippedKeys
  · have hskip : skippedKeys.contains key = true := List.contains_iff_mem.mpr hkey
    exact (Blind.idle g start).congr fun path => walkEntities_of_skipped visit path hskip e
  · have hskip : skippedKeys.contains key = false := by simpa using hkey
    cases e with
    | callable f =>
      exact (Blind.callable (hmember hkey [] f (.here f))).congr fun path =>
        walkEntities_callable visit path hskip f
    | nested id =>
      exact ((hvisit id).under (hmember hkey)).congr fun path =>
        walkEntities_nested visit path hskip id
    | list items =>
      exact (Blind.idle g start).congr fun path => walkEntities_list visit path key items
    | data j =>
      exact (Blind.idle g start).congr fun path => walkEntities_data visit path key j

theorem blind_entities {start : Reading α} {es : List (String × Entity α)}
    (hes : ∀ x ∈ es, x.1 ∉ skippedKeys → ∀ keys f, g.Reaches (.entity x.2) keys f →
      g.Reaches start (x.1 :: keys) f) :
    g.Blind start fun path => walkEntities visit path es := by
  induction es with
  | nil => exact .idle g start
  | cons x es ih =>
    obtain ⟨hx, hes⟩ := List.forall_mem_cons.mp hes
    exact ((blind_entity hvisit hx).trans (ih hes)).congr fun path =>
      walkEntities_cons visit path x es

/-- One member, which may also make the namespace that is gone through. -/
theorem blind_member {id : NamespaceId} {m : String × Member α} (hm : m ∈ g.members id) :
    g.Blind (.entity (.nested id)) fun path => walkMembers visit path [m] := by
  obtain ⟨key, m⟩ := m
  cases hread : m.read with
  | entity e =>
    have hentity : g.Blind (.entity (.nested id)) fun path => walkEntities visit path [(key, e)] :=
      blind_entity hvisit fun hkey keys f hf => .into hm hkey (hread ▸ hf)
    exact hentity.congr fun path => walkMembers_of_read hread
  | failure message =>
    exact (Blind.idle g _).congr fun path => walkMembers_of_failure hread
  | fresh made =>
    have hstep : ∀ path t, walkMembers visit path [(key, m)] t =
        if skippedKeys.contains key then t
        else walkEntities visit (memberPath path key) made t := by
      intro path t
      rw [walkMembers, hread]
      rfl
    by_cases hkey : key ∈ skippedKeys
    · refine (Blind.idle g _).congr fun path t => ?_
      rw [hstep, if_pos (List.contains_iff_mem.mpr hkey)]
    · have hmade : g.Blind (.fresh made) fun path => walkEntities visit path made :=
        blind_entities hvisit fun x hx hkey keys f hf => .within hx hkey hf
      have hunder := hmade.under fun keys f hf => .into hm hkey (hread ▸ hf)
      refine hunder.congr fun path t => ?_
      rw [hstep, if_neg (mt List.contains_iff_mem.mp hkey)]

theorem blind_members {id : NamespaceId} {ms : List (String × Member α)} (hms : ms ⊆ g.members id) :
    g.Blind (.entity (.nested id)) fun path => walkMembers visit path ms := by
  induction ms with
  | nil => exact .idle g _
  | cons m ms ih =>
    rw [List.cons_subset] at hms
    exact ((blind_member hvisit hms.1).trans (ih hms.2)).congr fun path =>
      walkMembers_cons visit path m ms

end Members

theorem blind_visit (g : Graph α) (fuel : Nat) (id : NamespaceId) :
    g.Blind (.entity (.nested id)) (g.visit fuel id) := by
  induction fuel generalizing id with
  | zero => exact .idle g _
  | succ fuel ih =>
    intro entered
    by_cases hid : id ∈ entered
    · refine ⟨[], entered, fun f hf => absurd hf List.not_mem_nil, fun path found => ?_⟩
      rw [visit, if_pos (by simpa using hid), List.map_nil, List.append_nil]
    · obtain ⟨finds, entered', hreach, hmembers⟩ :=
        blind_members ih (List.Subset.refl _) (id :: entered)
      refine ⟨finds, entered', hreach, fun path found => ?_⟩
      rw [visit_of_not_mem hid]
      exact hmembers path found

theorem exists_finds (g : Graph α) (root : Entity α) :
    ∃ finds : List (Find α), (∀ f ∈ finds, g.Reaches (.entity root) f.keys f.target) ∧
      ∀ base, g.walk root base = finds.map (Find.listed base) := by
  cases root with
  | nested id =>
    obtain ⟨finds, entered, hreach, hvisit⟩ := blind_visit g (g.size + 1) id []
    refine ⟨finds, hreach, fun base => ?_⟩
    rw [walk, hvisit, List.nil_append]
  | _ => exact ⟨[], fun f hf => absurd hf List.not_mem_nil, fun _ => rfl⟩

/-- **A base only stands in front of the paths.**  Take any graph, any root and any base that is not
empty.  The walk from the root with the base finds the same callables as the walk without it, in
the same order and under the same names, and each by keys that lead to it from the root.  Behind
the base and a dot stand all these keys, with dots between them; without a base the empty keys that
the way starts with are left out.  So the path with the base is the base, a dot and the path
without it, for all exports, just when no way to one of them starts with an empty key; where the
root is a namespace without such a key, that is so. -/
theorem walk_from_base (g : Graph α) (root : Entity α) {base : String} (hbase : base ≠ "") :
    ∃ finds : List (Find α),
      (∀ f ∈ finds, g.Reaches (.entity root) f.keys f.target) ∧
        g.walk root "" = finds.map (fun f =>
          ⟨".".intercalate (f.way.dropWhile String.isEmpty ++ [f.key]), displayName f.key,
            f.target⟩) ∧
        g.walk root base = finds.map (fun f =>
          ⟨base ++ "." ++ ".".intercalate f.keys, displayName f.key, f.target⟩) ∧
        (g.walk root base = (g.walk root "").map (fun x =>
            { x with path := base ++ "." ++ x.path }) ↔ ∀ f ∈ finds, f.way.head? ≠ some "") ∧
        ∀ id, root = .nested id → "" ∉ g.keys id → ∀ f ∈ finds, f.way.head? ≠ some "" := by
  obtain ⟨finds, hreach, hwalk⟩ := exists_finds g root
  refine ⟨finds, hreach, ?_, ?_, ?_, ?_⟩
  · rw [hwalk]
    exact List.map_congr_left fun f _ => f.listed_empty
  · rw [hwalk]
    exact List.map_congr_left fun f _ => f.listed_of_ne hbase
  · rw [hwalk, hwalk, List.map_map, List.map_inj_left]
    exact forall₂_congr fun f _ => f.relabelled_iff hbase
  · rintro id rfl hkeys f hf hhead
    obtain ⟨way, hway⟩ := List.head?_eq_some_iff.mp hhead
    have hreach := hreach f hf
    rw [Find.keys, hway] at hreach
    cases hreach with
    | into hm _ _ => exact hkeys (List.mem_map_of_mem hm)

/-- A namespace under an empty key, and another under a key that is not empty; each has a member
under an empty key. -/
def hollow : Graph Nat :=
  ⟨[⟨[("", .entity (.nested 1)), ("a", .maker [("", .callable 1), ("g", .callable 2)])], none,
        by decide⟩,
      ⟨[("f", .entity (.callable 3)), ("", .getter (.nested 0))], none, by decide⟩]⟩

/-- The first export has a dot too many behind the base, and the others have not. -/
theorem walk_from_base_hollow :
    "p" ≠ "" ∧
      (hollow.walk (.nested 0) "").map (fun x => (x.path, x.displayName, x.target)) =
        [("f", "f", 3), ("a.", "", 1), ("a.g", "g", 2)] ∧
      (hollow.walk (.nested 0) "p").map (fun x => (x.path, x.displayName, x.target)) =
        [("p..f", "f", 3), ("p.a.", "", 1), ("p.a.g", "g", 2)] ∧
      ∃ finds : List (Find Nat),
        (∀ f ∈ finds, hollow.Reaches (.entity (.nested 0)) f.keys f.target) ∧
          hollow.walk (.nested 0) "p" = finds.map (fun f =>
            ⟨"p" ++ "." ++ ".".intercalate f.keys, displayName f.key, f.target⟩) := by
  have hbase : "p" ≠ "" := by decide
  obtain ⟨finds, hreach, -, hwalk, -, -⟩ := walk_from_base hollow (.nested 0) hbase
  exact ⟨hbase, by decide +kernel, by decide +kernel, finds, hreach, hwalk⟩

end Graph

end ComponentHost
