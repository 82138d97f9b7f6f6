/-
# `ComponentHost.Resource.Table` — the resources of a run

A table holds the resources that are alive.  Creating a resource draws a handle
that no resource of the table ever had; revoking a handle takes its resource away
for good.
-/
import ComponentHost.Resource.Handle

namespace ComponentHost

/-- A file that is kept in memory. -/
structure Resource where
  filename : String
  bytes : ByteArray

/-- The live resources with their handles, in the order of their creation, and the number of the
next handle. -/
structure ResourceTable where
  entries : List (Handle × Resource)
  next : Nat

namespace ResourceTable

/-- No resources yet; handles are numbered from `first` on. -/
def empty (first : Nat) : ResourceTable := ⟨[], first⟩

def create (t : ResourceTable) (r : Resource) : Handle × ResourceTable :=
  (⟨t.next⟩, ⟨t.entries ++ [(⟨t.next⟩, r)], t.next + 1⟩)

def createAll : ResourceTable → List Resource → List Handle × ResourceTable
  | t, [] => ([], t)
  | t, r :: rest =>
    let (h, t) := t.create r
    let (hs, t) := createAll t rest
    (h :: hs, t)

/-- The live resource that a locator stands for. -/
def resolve (t : ResourceTable) (locator : String) : Option Resource :=
  (t.entries.find? fun e => e.1.locator == locator).map (·.2)

def isLive (t : ResourceTable) (h : Handle) : Bool :=
  t.entries.any fun e => e.1 == h

/-- Takes the resource of a handle away, and tells whether there was one. -/
def revoke (t : ResourceTable) (h : Handle) : Bool × ResourceTable :=
  (t.isLive h, { t with entries := t.entries.filter fun e => e.1 != h })

/-- Revokes handles one after the other, and counts those that were alive. -/
def revokeAll : ResourceTable → List Handle → Nat × ResourceTable
  | t, [] => (0, t)
  | t, h :: rest =>
    let (alive, t) := t.revoke h
    let (count, t) := revokeAll t rest
    (if alive then count + 1 else count, t)

def size (t : ResourceTable) : Nat := t.entries.length

end ResourceTable

end ComponentHost
