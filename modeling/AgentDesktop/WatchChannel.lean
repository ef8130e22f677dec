import Mathlib.Data.List.Basic

/-! A channel that keeps only the last value sent, and what its receivers read of it. -/

/-- A watch channel: the last value, and how many were sent after the first one. -/
structure Watch (α : Type) where
  value : α
  version : Nat := 0

namespace Watch

variable {α : Type}

def sendReplace (value : α) (w : Watch α) : Watch α :=
  ⟨value, w.version + 1⟩

/-- What a new receiver has seen: the version there is. -/
def subscribe (w : Watch α) : Nat :=
  w.version

/-- A version that a receiver has not seen yet. It then has. -/
def changed (seen : Nat) (w : Watch α) : Option Nat :=
  if seen < w.version then some w.version else none

theorem changed_eq_none {seen : Nat} {w : Watch α} : w.changed seen = none ↔ w.version ≤ seen := by
  simp [changed]

theorem changed_eq_some {seen next : Nat} {w : Watch α} :
    w.changed seen = some next ↔ seen < w.version ∧ next = w.version := by
  simp [changed, eq_comm]

/-- The values that were in the channel, the oldest first. -/
structure Held (w : Watch α) (values : List α) : Prop where
  length : values.length = w.version + 1
  last : values[w.version]? = some w.value

theorem Held.new (value : α) : Held ⟨value, 0⟩ [value] := ⟨rfl, rfl⟩

theorem Held.sendReplace {w : Watch α} {values : List α} (h : Held w values) (value : α) :
    Held (w.sendReplace value) (values ++ [value]) where
  length := by simp [Watch.sendReplace, h.length]
  last := by
    rw [Watch.sendReplace, ← h.length]
    exact List.getElem?_concat_length

/-- Values that were read one after another, none of them older than one before it. The last
is at the position given. -/
inductive Reads (values : List α) : Nat → List α → Prop
  | nil : Reads values 0 []
  | snoc {earlier position : Nat} {reads : List α} {value : α} (h : Reads values earlier reads)
    (later : earlier ≤ position) (there : values[position]? = some value) : Reads values position (reads ++ [value])

variable {values reads : List α} {position : Nat} {w : Watch α}

theorem Reads.append (h : Reads values position reads) (more : List α) : Reads (values ++ more) position reads := by
  induction h with
  | nil => exact .nil
  | snoc _ later there ih =>
    obtain ⟨hlt, _⟩ := List.getElem?_eq_some_iff.mp there
    exact .snoc ih later ((List.getElem?_append_left hlt).trans there)

theorem Reads.le_version (h : Reads values position reads) (held : Held w values) : position ≤ w.version := by
  cases h with
  | nil => exact Nat.zero_le _
  | snoc _ _ there =>
    obtain ⟨hlt, _⟩ := List.getElem?_eq_some_iff.mp there
    rw [held.length] at hlt
    exact Nat.le_of_lt_succ hlt

/-- A receiver reads the value there is. -/
theorem Reads.borrow (h : Reads values position reads) (held : Held w values) :
    Reads values w.version (reads ++ [w.value]) :=
  .snoc h (h.le_version held) held.last

/-- A receiver that has read, and has nothing new to see since, read the value there is last. -/
theorem Reads.last_eq (h : Reads values position reads) (held : Held w values) (since : w.version ≤ position)
    (hne : reads ≠ []) : reads.getLast? = some w.value := by
  have hlast := Nat.le_antisymm since (h.le_version held)
  cases h with
  | nil => exact absurd rfl hne
  | snoc _ _ there =>
    rw [List.getLast?_concat, ← there, ← held.last, hlast]

theorem Reads.mem (h : Reads values position reads) {value : α} (hmem : value ∈ reads) : value ∈ values := by
  induction h with
  | nil => cases hmem
  | snoc _ _ there ih =>
    rcases List.mem_append.mp hmem with hmem | hmem
    · exact ih hmem
    · rw [List.mem_singleton.mp hmem]
      exact List.mem_of_getElem? there

/-- Some of what was read was read in order too. -/
theorem Reads.sublist (h : Reads values position reads) {part : List α} (hpart : part.Sublist reads) :
    ∃ earlier, earlier ≤ position ∧ Reads values earlier part := by
  induction h generalizing part with
  | nil =>
    cases List.sublist_nil.mp hpart
    exact ⟨0, Nat.le_refl _, .nil⟩
  | @snoc _ position _ value _ later there ih =>
    obtain ⟨first, last, rfl, hfirst, hlast⟩ := List.sublist_append_iff.mp hpart
    obtain ⟨earlier, hle, hearlier⟩ := ih hfirst
    have hbefore := Nat.le_trans hle later
    rcases List.sublist_singleton.mp hlast with rfl | rfl
    · rw [List.append_nil]
      exact ⟨earlier, hbefore, hearlier⟩
    · exact ⟨position, Nat.le_refl _, .snoc hearlier hbefore there⟩

end Watch
