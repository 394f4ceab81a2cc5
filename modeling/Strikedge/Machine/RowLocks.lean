import Strikedge.Machine.OrderedMap

/-!
# A table with row locks

A transaction locks the rows it changes and stages their new versions, which the others do not
see. Its commit installs what it staged and its rollback drops it, and either frees its rows.
-/

namespace Strikedge

/-- The committed rows, who has locked which, and the versions staged under the locks. -/
structure RowLocks (κ ν τ : Type*) where
  committed : OrderedMap κ ν
  locks : OrderedMap κ τ
  staged : OrderedMap κ ν

namespace RowLocks

variable {κ ν τ : Type*} [DecidableEq κ]

def empty : RowLocks κ ν τ := ⟨∅, ∅, ∅⟩

instance : EmptyCollection (RowLocks κ ν τ) := ⟨empty⟩

section Rows

variable (table : RowLocks κ ν τ) (k x : κ) (v : ν) (t : τ)

/-- Nobody has locked a row. -/
def free : Bool := (table.locks.get? k).isNone

def lock : RowLocks κ ν τ := { table with locks := table.locks.set k t }

def stage : RowLocks κ ν τ := { table with staged := table.staged.set k v }

variable {table k x v t}

@[simp] theorem committed_lock : (table.lock k t).committed = table.committed := rfl

@[simp] theorem committed_stage : (table.stage k v).committed = table.committed := rfl

@[simp] theorem locks_stage : (table.stage k v).locks = table.locks := rfl

@[simp] theorem staged_lock : (table.lock k t).staged = table.staged := rfl

theorem free_iff : table.free k = true ↔ table.locks.get? k = none := by
  simp [free]

@[simp] theorem get?_lock : (table.lock k t).locks.get? x =
    if x = k then some t else table.locks.get? x :=
  OrderedMap.get?_set

@[simp] theorem get?_stage : (table.stage k v).staged.get? x =
    if x = k then some v else table.staged.get? x :=
  OrderedMap.get?_set

end Rows

variable (table : RowLocks κ ν τ) (k : κ) (t u : τ) [DecidableEq τ]

/-- A transaction holds the lock of a row. -/
def owns : Bool := table.locks.get? k = some t

/-- The version of a row that a transaction sees: its own, or else the committed one. -/
def view : Option ν :=
  if table.owns k t then (table.staged.get? k).or (table.committed.get? k)
  else table.committed.get? k

/-- Locks and staged versions of the others. -/
def release : RowLocks κ ν τ where
  committed := table.committed
  locks := table.locks.filter fun _ u => u ≠ t
  staged := table.staged.filter fun k _ => !table.owns k t

def install (rows : OrderedMap κ ν) (entries : List (κ × ν)) : OrderedMap κ ν :=
  entries.foldl (fun rows e => rows.set e.1 e.2) rows

def commit : RowLocks κ ν τ :=
  { table.release t with
    committed := install table.committed
      (table.staged.filter fun k _ => table.owns k t).entries }

variable {table k t u}

@[simp] theorem committed_release : (table.release t).committed = table.committed := rfl

@[simp] theorem locks_commit : (table.commit t).locks = (table.release t).locks := rfl

@[simp] theorem staged_commit : (table.commit t).staged = (table.release t).staged := rfl

@[simp] theorem owns_iff : table.owns k t = true ↔ table.locks.get? k = some t := by
  simp [owns]

/-- A transaction that ends frees its rows, and no others. -/
theorem locks_release :
    (table.release t).locks.get? k = some u ↔ table.locks.get? k = some u ∧ u ≠ t := by
  rw [release, OrderedMap.get?_filter, Option.filter_eq_some_iff]
  simp

theorem staged_release : (table.release t).staged.get? k =
    if table.owns k t then none else table.staged.get? k := by
  rw [release, OrderedMap.get?_filter]
  cases table.staged.get? k with
  | none => simp
  | some v => by_cases h : table.owns k t = true <;> simp [Option.filter, h]

theorem get?_install {entries : List (κ × ν)} {rows : OrderedMap κ ν}
    (hn : (entries.map Prod.fst).Nodup) :
    (install rows entries).get? k = (OrderedMap.find entries k).or (rows.get? k) := by
  induction entries generalizing rows with
  | nil => rfl
  | cons e entries ih =>
    obtain ⟨k', v⟩ := e
    obtain ⟨hfresh, hrest⟩ := List.nodup_cons.mp hn
    rw [install, List.foldl_cons, ← install, ih hrest, OrderedMap.get?_set]
    by_cases hk : k' = k
    · subst hk
      have hnone : OrderedMap.find entries k' = none := by
        by_contra hsome
        obtain ⟨v', hv'⟩ := Option.ne_none_iff_exists'.mp hsome
        exact hfresh (List.mem_map.mpr ⟨_, OrderedMap.mem_of_find hv', rfl⟩)
      simp [OrderedMap.find, hnone]
    · rw [OrderedMap.find, if_neg hk, if_neg (Ne.symm hk)]

/-- A commit installs the versions that the transaction staged. -/
theorem committed_commit : (table.commit t).committed.get? k =
    if table.owns k t then (table.staged.get? k).or (table.committed.get? k)
    else table.committed.get? k := by
  rw [commit]
  dsimp only
  rw [get?_install (table.staged.filter fun k _ => table.owns k t).nodup]
  have hfind : OrderedMap.find (table.staged.filter fun k _ => table.owns k t).entries k =
      (table.staged.filter fun k _ => table.owns k t).get? k := rfl
  rw [hfind, OrderedMap.get?_filter]
  cases table.staged.get? k with
  | none => simp
  | some v => by_cases h : table.owns k t = true <;> simp [Option.filter, h]

/-- The commit installs what the transaction sees. -/
theorem committed_commit_eq_view : (table.commit t).committed.get? k = table.view k t := by
  rw [committed_commit, view]

end RowLocks

end Strikedge
