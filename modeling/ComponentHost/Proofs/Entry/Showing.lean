/-
# `ComponentHost.Proofs.Entry.Showing` — namespaces that show a component

A namespace shows the exports of a component in the place of their names: a callable for
a function, a namespace that shows them for the exports of an instance, and data for all
else.  Mounting makes such a namespace, and as long as its namespaces are kept, a graph
shows what it shows.  Setting members of the root keeps them, and so does adding more.
-/
import ComponentHost.Proofs.Entry.Mount

namespace ComponentHost

namespace Entry

/-! ## Namespaces that show components -/

mutual

/-- The members are what the graph shows for exports of instance `owner` that lie in the instances
`within`. -/
inductive Shows (g : Graph BoundFunction) (owner : Nat) :
    List String → List (String × ExportItem) → List (String × Member BoundFunction) → Prop
  | nil (within : List String) : Shows g owner within [] []
  | cons {within : List String} {name : String} {item : ExportItem} {e : Entity BoundFunction}
      {items : List (String × ExportItem)} {ms : List (String × Member BoundFunction)} :
      ShowsItem g owner within name item e → Shows g owner within items ms →
      Shows g owner within ((name, item) :: items) ((name, .entity e) :: ms)

/-- The entity is what it shows for one export: a callable of the instance, a namespace for an
exported instance, and the kind of any other export. -/
inductive ShowsItem (g : Graph BoundFunction) (owner : Nat) :
    List String → String → ExportItem → Entity BoundFunction → Prop
  | function (within : List String) (name : String) (signature : Signature) (body : Option Body) :
      ShowsItem g owner within name (.function signature body)
        (.callable ⟨owner, within, name, signature, body⟩)
  | nested {within : List String} {name : String} {exports : List (String × ExportItem)}
      {id : NamespaceId} : ShowsIn g owner (within ++ [name]) exports id →
      ShowsItem g owner within name (.nested exports) (.nested id)
  | type (within : List String) (name : String) :
      ShowsItem g owner within name .type (kindData .type)
  | resource (within : List String) (name : String) :
      ShowsItem g owner within name .resource (kindData .resource)
  | coreModule (within : List String) (name : String) :
      ShowsItem g owner within name .coreModule (kindData .coreModule)
  | component (within : List String) (name : String) :
      ShowsItem g owner within name .component (kindData .component)

/-- The namespace, which is not the root, has what is shown for the exports as its members. -/
inductive ShowsIn (g : Graph BoundFunction) (owner : Nat) :
    List String → List (String × ExportItem) → NamespaceId → Prop
  | mk {within : List String} {exports : List (String × ExportItem)} {id : NamespaceId}
      {ms : List (String × Member BoundFunction)} : rootId < id → id < g.size →
      Shows g owner within exports ms → g.members id = (Namespace.ofList none ms).members →
      ShowsIn g owner within exports id

end

/-! ## Keeping namespaces -/

/-- The namespaces of `g` are in `g'` as they were, but for the root. -/
structure Keeps (g g' : Graph BoundFunction) : Prop where
  size_le : g.size ≤ g'.size
  members : ∀ id : Nat, rootId < id → id < g.size → g'.members id = g.members id

section Keeps

variable {g g' : Graph BoundFunction} {owner : Nat}

theorem Keeps.of_extends (h : g.Extends g') : Keeps g g' where
  size_le := h.size_le
  members := fun _ _ hid => h.members hid

theorem keeps_insertAll (g : Graph BoundFunction) (ms : List (String × Member BoundFunction)) :
    Keeps g (g.insertAll rootId ms) where
  size_le := Nat.le_of_eq (g.size_insertAll rootId ms).symm
  members := fun _ hid _ => Graph.members_insertAll_of_ne (Nat.ne_of_lt hid) ms

theorem Keeps.entities (h : Keeps g g') {id : NamespaceId} (hroot : rootId < id)
    (hid : id < g.size) : entities g' id = entities g id := by
  rw [Entry.entities, Entry.entities, h.members id hroot hid]

mutual

theorem Shows.keep (h : Keeps g g') :
    ∀ {within : List String} {items : List (String × ExportItem)}
      {ms : List (String × Member BoundFunction)}, Shows g owner within items ms →
      Shows g' owner within items ms
  | within, _, _, .nil _ => .nil within
  | _, _, _, .cons hitem hitems => .cons (hitem.keep h) (hitems.keep h)

theorem ShowsItem.keep (h : Keeps g g') :
    ∀ {within : List String} {name : String} {item : ExportItem} {e : Entity BoundFunction},
      ShowsItem g owner within name item e → ShowsItem g' owner within name item e
  | within, name, _, _, .function _ _ signature body => .function within name signature body
  | _, _, _, _, .nested hin => .nested (hin.keep h)
  | within, name, _, _, .type _ _ => .type within name
  | within, name, _, _, .resource _ _ => .resource within name
  | within, name, _, _, .coreModule _ _ => .coreModule within name
  | within, name, _, _, .component _ _ => .component within name

theorem ShowsIn.keep (h : Keeps g g') :
    ∀ {within : List String} {exports : List (String × ExportItem)} {id : NamespaceId},
      ShowsIn g owner within exports id → ShowsIn g' owner within exports id
  | _, _, id, .mk hroot hid hshows hmembers =>
    .mk hroot (Nat.lt_of_lt_of_le hid h.size_le) (hshows.keep h)
      ((h.members id hroot hid).trans hmembers)

end

/-! ## Mounting shows -/

theorem showsIn_add {within : List String} {exports : List (String × ExportItem)}
    {ms : List (String × Member BoundFunction)} (hg : 0 < g.size)
    (h : Shows g owner within exports ms) :
    ShowsIn (g.add (.ofList none ms)).2 owner within exports g.size := by
  refine .mk hg ?_ (h.keep (.of_extends (g.extends_add _))) (g.members_add_self _)
  rw [Graph.size_add]
  exact Nat.lt_succ_self _

mutual

theorem shows_mountItems (owner : Nat) :
    ∀ (within : List String) (items : List (String × ExportItem)) (g : Graph BoundFunction),
      0 < g.size →
        Shows (mountItems owner within items g).2 owner within items
          (mountItems owner within items g).1
  | within, [], g, _ => by
      rw [mountItems]
      exact .nil within
  | within, (name, item) :: rest, g, hg => by
      have hsize := (extends_mountItem owner within name item g).size_le
      have hkeeps := Keeps.of_extends (extends_mountItems owner within rest
        (mountItem owner within name item g).2)
      rw [mountItems_cons]
      exact .cons ((showsItem_mountItem owner within name item g hg).keep hkeeps)
        (shows_mountItems owner within rest _ (Nat.lt_of_lt_of_le hg hsize))

theorem showsItem_mountItem (owner : Nat) :
    ∀ (within : List String) (name : String) (item : ExportItem) (g : Graph BoundFunction),
      0 < g.size →
        ShowsItem (mountItem owner within name item g).2 owner within name item
          (mountItem owner within name item g).1
  | within, name, .function signature body, g, _ => by
      rw [mountItem]
      exact .function within name signature body
  | within, name, .nested exports, g, hg => by
      have hsize := (extends_mountItems owner (within ++ [name]) exports g).size_le
      rw [mountItem_nested]
      exact .nested (showsIn_add (Nat.lt_of_lt_of_le hg hsize)
        (shows_mountItems owner (within ++ [name]) exports g hg))
  | within, name, .type, g, _ => by
      rw [mountItem]
      exact .type within name
  | within, name, .resource, g, _ => by
      rw [mountItem]
      exact .resource within name
  | within, name, .coreModule, g, _ => by
      rw [mountItem]
      exact .coreModule within name
  | within, name, .component, g, _ => by
      rw [mountItem]
      exact .component within name

end

theorem showsIn_mount (owner : Nat) (exports : List (String × ExportItem)) (hg : 0 < g.size) :
    ShowsIn (mount owner exports g).2 owner [] exports (mount owner exports g).1 := by
  have hsize := (extends_mountItems owner [] exports g).size_le
  exact showsIn_add (Nat.lt_of_lt_of_le hg hsize) (shows_mountItems owner [] exports g hg)

theorem extends_mount (owner : Nat) (exports : List (String × ExportItem))
    (g : Graph BoundFunction) : g.Extends (mount owner exports g).2 :=
  (extends_mountItems owner [] exports g).trans (Graph.extends_add _ _)

theorem size_le_mount (owner : Nat) (exports : List (String × ExportItem))
    (g : Graph BoundFunction) : g.size ≤ (mount owner exports g).1 :=
  (extends_mountItems owner [] exports g).size_le

end Keeps

end Entry

end ComponentHost
