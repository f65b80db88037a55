import Mathlib.Tactic.SplitIfs
import Mathlib.Data.List.Basic

/-!
# Row locks

A transaction locks rows for sharing or for itself and holds its locks until it ends.  The table of
the locks that are held lists an owner, what it locked and how.

* `Locks.free` : an owner may lock a resource.
* `Locks.acquire`, `Locks.release` : lock a resource, and give up all locks.
* `Locks.Compatible` : two owners hold the same resource for sharing only; kept by both.
-/

namespace PreCommunity

namespace Concurrent

/-- How a resource is locked. -/
inductive LockMode where
  | shared | exclusive
deriving DecidableEq, Repr

/-- A lock that is held. -/
structure Held (ω ρ : Type) where
  /-- Who holds it. -/
  owner : ω
  /-- What is locked. -/
  resource : ρ
  /-- How. -/
  mode : LockMode
deriving DecidableEq, Repr

/-- The locks that are held. -/
abbrev Locks (ω ρ : Type) := List (Held ω ρ)

namespace Locks

variable {ω ρ : Type} [DecidableEq ω] [DecidableEq ρ] {ls : Locks ω ρ} {o o' : ω} {r r' : ρ}
  {m m' : LockMode}

/-- Nobody else holds the resource in a way that excludes this one. -/
def free (ls : Locks ω ρ) (o : ω) (r : ρ) (m : LockMode) : Bool :=
  ls.all fun h => h.owner = o ∨ h.resource ≠ r ∨ (h.mode = .shared ∧ m = .shared)

/-- Lock a resource. -/
def acquire (ls : Locks ω ρ) (o : ω) (r : ρ) (m : LockMode) : Locks ω ρ := ⟨o, r, m⟩ :: ls

/-- Give up all locks of an owner. -/
def release (ls : Locks ω ρ) (o : ω) : Locks ω ρ := ls.filter fun h => h.owner ≠ o

/-- Two owners hold the same resource for sharing only. -/
def Compatible (ls : Locks ω ρ) : Prop :=
  ∀ h ∈ ls, ∀ k ∈ ls, h.resource = k.resource → h.owner ≠ k.owner →
    h.mode = .shared ∧ k.mode = .shared

omit [DecidableEq ω] [DecidableEq ρ] in
theorem compatible_nil : Compatible ([] : Locks ω ρ) := by rintro h ⟨⟩

theorem free_iff : ls.free o r m = true ↔
    ∀ h ∈ ls, h.owner = o ∨ h.resource ≠ r ∨ (h.mode = .shared ∧ m = .shared) := by
  simp [free]

omit [DecidableEq ω] [DecidableEq ρ] in
theorem mem_acquire {h : Held ω ρ} : h ∈ ls.acquire o r m ↔ h = ⟨o, r, m⟩ ∨ h ∈ ls :=
  List.mem_cons

omit [DecidableEq ρ] in
theorem mem_release {h : Held ω ρ} : h ∈ ls.release o ↔ h ∈ ls ∧ h.owner ≠ o := by
  simp [release]

omit [DecidableEq ρ] in
/-- The locks of the others stay. -/
theorem mem_release_of_ne (h : (⟨o, r, m⟩ : Held ω ρ) ∈ ls) (hne : o ≠ o') :
    (⟨o, r, m⟩ : Held ω ρ) ∈ ls.release o' :=
  mem_release.2 ⟨h, hne⟩

theorem Compatible.acquire (hls : Compatible ls) (hfree : ls.free o r m = true) :
    Compatible (ls.acquire o r m) := by
  have hnew := free_iff.1 hfree
  rintro h hh k hk hres howner
  obtain rfl | hh := mem_acquire.1 hh <;> obtain rfl | hk := mem_acquire.1 hk
  · exact absurd rfl howner
  · obtain h | h | h := hnew k hk
    · exact absurd h.symm howner
    · exact absurd hres.symm h
    · exact ⟨h.2, h.1⟩
  · obtain h' | h' | h' := hnew h hh
    · exact absurd h' howner
    · exact absurd hres h'
    · exact h'
  · exact hls h hh k hk hres howner

omit [DecidableEq ρ] in
theorem Compatible.release (hls : Compatible ls) (o : ω) : Compatible (ls.release o) :=
  fun h hh k hk => hls h (mem_release.1 hh).1 k (mem_release.1 hk).1

omit [DecidableEq ω] [DecidableEq ρ] in
/-- A resource that one owner locked for itself is not held by another. -/
theorem Compatible.not_both (hls : Compatible ls) (h : (⟨o, r, .exclusive⟩ : Held ω ρ) ∈ ls)
    (h' : (⟨o', r, m⟩ : Held ω ρ) ∈ ls) : o = o' := by
  by_contra hne
  exact LockMode.noConfusion (hls _ h _ h' rfl hne).1

/-- A resource that another owner may lock for itself is not held. -/
theorem not_held_of_free (hfree : ls.free o r .exclusive = true)
    (h : (⟨o', r, m⟩ : Held ω ρ) ∈ ls) : o' = o := by
  obtain h | h | h := free_iff.1 hfree _ h
  · exact h
  · exact absurd rfl h
  · exact LockMode.noConfusion h.2

end Locks

end Concurrent

end PreCommunity
