import Mathlib.Data.List.Basic
import Strikedge.Machine.Program

/-!
# Readers of a byte buffer

A reader is a program whose statements fetch bytes: so many from a position on. It can be run on
a buffer, where a fetch past the end fails, and the fetches it makes can be listed. A reader that
stays within a range of positions succeeds on every buffer that covers the range. What it reads
does not change when the buffer is extended, or moved together with its positions.
-/

namespace Strikedge.Machine

/-- A fetch of bytes. -/
structure Access where
  start : ℕ
  size : ℕ
  deriving DecidableEq, Repr

abbrev Reader := Program Access fun _ => List UInt8

namespace Reader

variable {α β : Type}

def getBytes (start size : ℕ) : Reader (List UInt8) := Program.statement ⟨start, size⟩

/-- Run a reader. A fetch outside of the buffer is a range error. -/
def exec (view : List UInt8) : Reader α → Except Unit α
  | .done a => .ok a
  | .ask access next =>
    if access.start + access.size ≤ view.length then
      exec view (next ((view.drop access.start).take access.size))
    else .error ()

/-- The fetches a reader makes. -/
def trace (view : List UInt8) : Reader α → List Access
  | .done _ => []
  | .ask access next =>
    if access.start + access.size ≤ view.length then
      access :: trace view (next ((view.drop access.start).take access.size))
    else []

/-- The same reader, so many positions further on. -/
def shift (distance : ℕ) : Reader α → Reader α
  | .done a => .done a
  | .ask access next =>
    .ask ⟨access.start + distance, access.size⟩ fun bytes => shift distance (next bytes)

/-- The protocol of the fetches in a range of positions. -/
def range (low high : ℕ) : Protocol Access (fun _ => List UInt8) Unit where
  Admits _ access := low ≤ access.start ∧ access.start + access.size ≤ high
  after _ _ _ := ()

/-- Whatever it reads, the reader stays within the range. -/
def Within (low high : ℕ) (p : Reader α) : Prop := (range low high).Meets () p fun _ _ => True

variable {low high distance : ℕ} {p : Reader α} {f : α → Reader β} {view rest : List UInt8}

theorem within_pure (a : α) : Within low high (pure a : Reader α) := trivial

theorem within_getBytes {start size : ℕ} (hlow : low ≤ start) (hhigh : start + size ≤ high) :
    Within low high (getBytes start size) :=
  ⟨⟨hlow, hhigh⟩, fun _ => trivial⟩

theorem Within.bind (h : Within low high p) (hf : ∀ a, Within low high (f a)) :
    Within low high (p >>= f) :=
  Protocol.meets_bind.mpr (Protocol.Meets.mono h fun a _ _ => hf a)

theorem Within.exec (h : Within low high p) (hview : high ≤ view.length) :
    ∃ a, p.exec view = .ok a := by
  induction p with
  | done a => exact ⟨a, rfl⟩
  | ask access next ih =>
      have hin : access.start + access.size ≤ view.length := Nat.le_trans h.1.2 hview
      obtain ⟨a, ha⟩ := ih _ (h.2 ((view.drop access.start).take access.size))
      exact ⟨a, by rw [Reader.exec, if_pos hin, ha]⟩

theorem Within.trace (h : Within low high p) :
    ∀ access ∈ p.trace view, low ≤ access.start ∧ access.start + access.size ≤ high := by
  induction p with
  | done a => exact fun access haccess => nomatch haccess
  | ask fetch next ih =>
      intro access haccess
      rw [Reader.trace] at haccess
      split at haccess
      case isTrue =>
        obtain rfl | haccess := List.mem_cons.mp haccess
        · exact h.1
        · exact ih _ (h.2 _) access haccess
      case isFalse => exact nomatch haccess

theorem exec_getBytes (start size : ℕ) : (getBytes start size).exec view =
    if start + size ≤ view.length then .ok ((view.drop start).take size) else .error () := rfl

theorem exec_bind : (p >>= f).exec view = (p.exec view).bind fun a => (f a).exec view := by
  induction p with
  | done a => rfl
  | ask access next ih =>
      show Reader.exec view (.ask access fun bytes => next bytes >>= f) = _
      rw [exec, exec]
      split
      · exact ih _
      · rfl

theorem exec_bind_of_ok {a : α} (h : p.exec view = .ok a) :
    (p >>= f).exec view = (f a).exec view := by
  rw [exec_bind, h]
  rfl

theorem trace_bind_of_ok {a : α} (h : p.exec view = .ok a) :
    (p >>= f).trace view = p.trace view ++ (f a).trace view := by
  induction p with
  | done b =>
      obtain rfl := Except.ok.inj h
      rfl
  | ask access next ih =>
      show Reader.trace view (.ask access fun bytes => next bytes >>= f) = _
      rw [exec] at h
      rw [trace, trace]
      split at h
      case isTrue hin =>
        rw [if_pos hin, if_pos hin, List.cons_append]
        exact congrArg (access :: ·) (ih _ h)
      case isFalse => exact nomatch h

theorem exec_append {a : α} (h : p.exec view = .ok a) : p.exec (view ++ rest) = .ok a := by
  induction p with
  | done b => exact h
  | ask access next ih =>
      rw [exec] at h
      split at h
      case isTrue hin =>
        have hlong : access.start + access.size ≤ (view ++ rest).length := by
          rw [List.length_append]
          omega
        have hbytes : ((view ++ rest).drop access.start).take access.size =
            (view.drop access.start).take access.size := by
          rw [List.drop_append_of_le_length (by omega),
            List.take_append_of_le_length (by rw [List.length_drop]; omega)]
        rw [exec, if_pos hlong, hbytes]
        exact ih _ h
      case isFalse => exact nomatch h

@[simp] theorem shift_pure (a : α) : shift distance (pure a : Reader α) = pure a := rfl

@[simp] theorem shift_bind : shift distance (p >>= f) = shift distance p >>= fun a =>
    shift distance (f a) := by
  induction p with
  | done a => rfl
  | ask access next ih => exact congrArg (Program.ask _) (funext fun bytes => ih bytes)

/-- A buffer in front moves the positions. -/
theorem exec_shift (front view : List UInt8) (p : Reader α) :
    (p.shift front.length).exec (front ++ view) = p.exec view := by
  induction p with
  | done a => rfl
  | ask access next ih =>
      have hin : access.start + front.length + access.size ≤ (front ++ view).length ↔
          access.start + access.size ≤ view.length := by
        rw [List.length_append]
        omega
      have hbytes : (front ++ view).drop (access.start + front.length) =
          view.drop access.start := by
        rw [Nat.add_comm, ← List.drop_drop, List.drop_left]
      rw [shift, exec, exec]
      simp only [hin, hbytes]
      split
      · exact ih _
      · rfl

def littleEndian (bytes : List UInt8) : ℕ := bytes.foldr (fun byte n => byte.toNat + 256 * n) 0

def getUint8 (start : ℕ) : Reader ℕ := do
  let bytes ← getBytes start 1
  return littleEndian bytes

def getInt16 (start : ℕ) : Reader Int := do
  let bytes ← getBytes start 2
  return (BitVec.ofNat 16 (littleEndian bytes)).toInt

def getInt32 (start : ℕ) : Reader Int := do
  let bytes ← getBytes start 4
  return (BitVec.ofNat 32 (littleEndian bytes)).toInt

/-- A float is its bits. -/
def getFloat32 (start : ℕ) : Reader (BitVec 32) := do
  let bytes ← getBytes start 4
  return BitVec.ofNat 32 (littleEndian bytes)

section Fields

variable {start : ℕ}

theorem within_getUint8 (hlow : low ≤ start) (hhigh : start + 1 ≤ high) :
    Within low high (getUint8 start) :=
  (within_getBytes hlow hhigh).bind fun _ => within_pure _

theorem within_getInt16 (hlow : low ≤ start) (hhigh : start + 2 ≤ high) :
    Within low high (getInt16 start) :=
  (within_getBytes hlow hhigh).bind fun _ => within_pure _

theorem within_getInt32 (hlow : low ≤ start) (hhigh : start + 4 ≤ high) :
    Within low high (getInt32 start) :=
  (within_getBytes hlow hhigh).bind fun _ => within_pure _

theorem within_getFloat32 (hlow : low ≤ start) (hhigh : start + 4 ≤ high) :
    Within low high (getFloat32 start) :=
  (within_getBytes hlow hhigh).bind fun _ => within_pure _

theorem exec_getUint8 (h : start + 1 ≤ view.length) :
    (getUint8 start).exec view = .ok (littleEndian ((view.drop start).take 1)) := by
  rw [getUint8, exec_bind, exec_getBytes, if_pos h]
  rfl

theorem exec_getInt16 (h : start + 2 ≤ view.length) : (getInt16 start).exec view =
    .ok (BitVec.ofNat 16 (littleEndian ((view.drop start).take 2))).toInt := by
  rw [getInt16, exec_bind, exec_getBytes, if_pos h]
  rfl

theorem exec_getInt32 (h : start + 4 ≤ view.length) : (getInt32 start).exec view =
    .ok (BitVec.ofNat 32 (littleEndian ((view.drop start).take 4))).toInt := by
  rw [getInt32, exec_bind, exec_getBytes, if_pos h]
  rfl

theorem trace_getInt32 (h : start + 4 ≤ view.length) :
    (getInt32 start).trace view = [⟨start, 4⟩] := by
  show (if start + 4 ≤ view.length then _ else _) = _
  rw [if_pos h]
  rfl

@[simp] theorem shift_getInt16 :
    shift distance (getInt16 start) = getInt16 (start + distance) := rfl

@[simp] theorem shift_getInt32 :
    shift distance (getInt32 start) = getInt32 (start + distance) := rfl

@[simp] theorem shift_getFloat32 :
    shift distance (getFloat32 start) = getFloat32 (start + distance) := rfl

end Fields

end Reader

end Strikedge.Machine
