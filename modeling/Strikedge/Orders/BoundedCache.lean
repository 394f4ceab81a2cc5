import Strikedge.Machine.OrderedMap

/-!
# A cache bounded by age and by count

Entries carry the instant they were set. Reading an entry past its age deletes it, and
setting one sweeps the expired entries and then the oldest, until the cap is met. What the
cache holds for other keys is thereby only ever dropped, never changed.
-/

namespace Strikedge.Orders

structure BoundedTtlCache (ν : Type*) where
  ttlMs : Int
  maxEntries : Nat
  maxEntries_pos : 0 < maxEntries
  /-- by key, the instant of the last `set` and the value -/
  entries : OrderedMap String (Int × ν) := ∅

namespace BoundedTtlCache

variable {ν : Type*}

def new (ttlMs : Int) (maxEntries : Nat) : BoundedTtlCache ν where
  ttlMs := ttlMs
  maxEntries := max 1 maxEntries
  maxEntries_pos := by omega

variable (c : BoundedTtlCache ν) (now : Int) (key : String)

/-- A fresh value, or none. An expired entry is deleted, not just skipped. -/
def get : Option ν × BoundedTtlCache ν :=
  match c.entries.get? key with
  | none => (none, c)
  | some (setAt, value) =>
    if now - setAt ≥ c.ttlMs then (none, { c with entries := c.entries.delete key })
    else (some value, c)

/-- Drop the oldest entries beyond the first `keep` from the end. -/
def dropOldest (entries : OrderedMap String (Int × ν)) (keep : Nat) :
    OrderedMap String (Int × ν) :=
  ⟨entries.entries.drop (entries.size - keep),
    entries.nodup.sublist ((List.drop_sublist _ _).map _)⟩

/-- Drop expired entries, then oldest first until within the cap. -/
def evict : BoundedTtlCache ν :=
  let fresh := c.entries.filter fun _ entry => now - c.ttlMs < entry.1
  { c with entries := dropOldest fresh c.maxEntries }

def set (value : ν) : BoundedTtlCache ν :=
  evict { c with entries := (c.entries.delete key).set key (now, value) } now

/-- A held value is an object: what its owner does to it shows in the cache. -/
def mutate (value : ν) : BoundedTtlCache ν :=
  match c.entries.get? key with
  | none => c
  | some (setAt, _) => { c with entries := c.entries.set key (setAt, value) }

/-- The value a key holds, whatever its age. -/
def held : Option ν := (c.entries.get? key).map Prod.snd

section Held

variable {c : BoundedTtlCache ν} {now : Int} {key other : String} {value v : ν}

theorem held_dropOldest {entries : OrderedMap String (Int × ν)} {keep : Nat} {e : Int × ν}
    (h : (dropOldest entries keep).get? other = some e) : entries.get? other = some e := by
  rw [← OrderedMap.mem_entries_iff] at h ⊢
  exact List.mem_of_mem_drop h

/-- Sweeping only drops. -/
theorem held_evict (h : (c.evict now).held other = some v) : c.held other = some v := by
  obtain ⟨e, he, hv⟩ := Option.map_eq_some_iff.mp h
  have hfresh := held_dropOldest he
  rw [OrderedMap.get?_filter] at hfresh
  exact Option.map_eq_some_iff.mpr ⟨e, (Option.filter_eq_some_iff.mp hfresh).1, hv⟩

theorem held_set (h : (c.set now key value).held other = some v) :
    if other = key then v = value else c.held other = some v := by
  have h := held_evict h
  split
  case isTrue hkey =>
    subst hkey
    simpa [held, eq_comm] using h
  case isFalse hkey => simpa [held, hkey] using h

theorem held_mutate (h : (c.mutate key value).held other = some v) :
    if other = key then v = value else c.held other = some v := by
  rw [mutate] at h
  split at h
  case h_1 hnone =>
    split
    case isTrue hkey =>
      subst hkey
      rw [held, hnone] at h
      cases h
    case isFalse hkey => exact h
  case h_2 =>
    split
    case isTrue hkey =>
      subst hkey
      simpa [held, eq_comm] using h
    case isFalse hkey => simpa [held, hkey] using h

theorem held_get (h : (c.get now key).2.held other = some v) : c.held other = some v := by
  rw [get] at h
  split at h
  · exact h
  · split at h
    · by_cases hkey : other = key
      · simp [held, hkey] at h
      · simpa [held, hkey] using h
    · exact h

theorem get_ttlMs : (c.get now key).2.ttlMs = c.ttlMs := by
  rw [get]
  split
  · rfl
  · split <;> rfl

/-- Reading a fresh entry changes nothing. -/
theorem get_of_fresh (h : (c.get now key).1 = some v) : (c.get now key).2 = c := by
  rw [get] at h ⊢
  split at h
  · cases h
  · split at h
    · cases h
    case isFalse hfresh => rw [if_neg hfresh]

theorem set_ttlMs : (c.set now key value).ttlMs = c.ttlMs := rfl

theorem mutate_ttlMs : (c.mutate key value).ttlMs = c.ttlMs := by
  rw [mutate]
  split <;> rfl

theorem held_of_get (h : (c.get now key).1 = some v) : c.held key = some v := by
  rw [get] at h
  split at h
  · cases h
  case h_2 hentry =>
    split at h
    · cases h
    · rw [held, hentry]
      exact h

theorem last_mem_drop {α : Type*} {xs : List α} {x : α} {n : Nat} (h : 0 < n) :
    x ∈ (xs ++ [x]).drop ((xs ++ [x]).length - n) := by
  rw [List.drop_append_of_le_length]
  · simp
  · rw [List.length_append, List.length_singleton]
    omega

/-- The entry just set is the youngest, so neither sweep reaches it. -/
theorem get_set (hpos : 0 < c.ttlMs) : ((c.set now key value).get now key).1 = some value := by
  have hentry : (c.set now key value).entries.get? key = some (now, value) := by
    rw [← OrderedMap.mem_entries_iff]
    have hput : ((c.entries.delete key).set key (now, value)).entries =
        (c.entries.delete key).entries ++ [(key, (now, value))] := by
      apply OrderedMap.entries_set
      rw [OrderedMap.mem_keys_iff]
      simp
    have hfilter : (((c.entries.delete key).set key (now, value)).filter
        fun _ entry => now - c.ttlMs < entry.1).entries =
        ((c.entries.delete key).filter fun _ entry => now - c.ttlMs < entry.1).entries ++
          [(key, (now, value))] := by
      show List.filter _ ((c.entries.delete key).set key (now, value)).entries = _
      rw [hput, List.filter_append]
      congr 1
      apply List.filter_eq_self.mpr
      intro e he
      rw [List.mem_singleton.mp he]
      exact decide_eq_true (show now - c.ttlMs < now by omega)
    show (key, (now, value)) ∈ List.drop (List.length _ - c.maxEntries) _
    rw [hfilter]
    exact last_mem_drop c.maxEntries_pos
  have hfresh : ¬ (now - now ≥ c.ttlMs) := by omega
  rw [get, hentry]
  show (if now - now ≥ c.ttlMs then _ else _ : Option ν × BoundedTtlCache ν).1 = some value
  rw [if_neg hfresh]

theorem get_mutate (h : (c.get now key).1 = some v) :
    ((c.mutate key value).get now key).1 = some value := by
  rw [get] at h
  split at h
  · cases h
  case h_2 setAt old hentry =>
    split at h
    · cases h
    case isFalse hfresh =>
      rw [mutate, hentry]
      simp [get, hfresh]

end Held

end BoundedTtlCache

end Strikedge.Orders
