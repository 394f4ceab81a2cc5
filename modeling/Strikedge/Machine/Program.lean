import Mathlib.Init

/-!
# Programs of atomic statements

A program asks one statement after the other and goes on with its answer. Programs that run side
by side interleave at statements, so a program is what is left of it.

A ghost state follows the statements of a program and their answers. `Meets` is the weakest
precondition: every statement is admitted in the ghost state it is asked in, and the result
meets a postcondition together with the last one. It says nothing about what the statements do,
hence it holds under any interleaving with others.
-/

namespace Strikedge.Machine

/-- A result, or the next statement with what follows each of its answers. -/
inductive Program (Q : Type) (R : Q → Type) (α : Type) : Type where
  | done (result : α)
  | ask (q : Q) (next : R q → Program Q R α)

namespace Program

variable {Q : Type} {R : Q → Type} {α β ε : Type}

def bind : Program Q R α → (α → Program Q R β) → Program Q R β
  | done a, f => f a
  | ask q next, f => ask q fun answer => (next answer).bind f

instance : Monad (Program Q R) where
  pure := done
  bind := bind

/-- A single statement. -/
def statement (q : Q) : Program Q R (R q) := ask q done

end Program

/-- How a ghost state follows a program, and which statements it admits. -/
structure Protocol (Q : Type) (R : Q → Type) (G : Type) where
  Admits : G → Q → Prop
  after : G → (q : Q) → R q → G

namespace Protocol

variable {Q : Type} {R : Q → Type} {G α β ε : Type} (proto : Protocol Q R G)

/-- Whatever is answered, the statements are admitted, and the result meets the postcondition. -/
def Meets (g : G) : Program Q R α → (α → G → Prop) → Prop
  | .done a, post => post a g
  | .ask q next, post =>
    proto.Admits g q ∧ ∀ answer, Meets (proto.after g q answer) (next answer) post

variable {proto} {g : G} {p : Program Q R α} {f : α → Program Q R β} {post post' : α → G → Prop}

theorem Meets.mono (h : proto.Meets g p post) (himp : ∀ a g', post a g' → post' a g') :
    proto.Meets g p post' := by
  induction p generalizing g with
  | done a => exact himp a g h
  | ask q next ih => exact ⟨h.1, fun answer => ih answer (h.2 answer)⟩

theorem meets_bind {post : β → G → Prop} :
    proto.Meets g (p.bind f) post ↔ proto.Meets g p fun a g' => proto.Meets g' (f a) post := by
  induction p generalizing g with
  | done a => exact Iff.rfl
  | ask q next ih =>
      constructor
      · exact fun h => ⟨h.1, fun answer => (ih answer).mp (h.2 answer)⟩
      · exact fun h => ⟨h.1, fun answer => (ih answer).mpr (h.2 answer)⟩

variable (proto) in
/-- The precondition of a program that can fail, with a postcondition for either end. -/
def MeetsOr (g : G) (x : ExceptT ε (Program Q R) α) (ok : α → G → Prop) (failed : ε → G → Prop) :
    Prop :=
  proto.Meets g x.run fun
    | .ok a => ok a
    | .error e => failed e

section Fallible

variable {x : ExceptT ε (Program Q R) α} {k : α → ExceptT ε (Program Q R) β}
variable {ok ok' : α → G → Prop} {failed failed' : ε → G → Prop}

theorem MeetsOr.mono (h : proto.MeetsOr g x ok failed) (hok : ∀ a g', ok a g' → ok' a g')
    (hfailed : ∀ e g', failed e g' → failed' e g') : proto.MeetsOr g x ok' failed' := by
  refine Meets.mono h fun result g' hpost => ?_
  cases result with
  | ok a => exact hok a g' hpost
  | error e => exact hfailed e g' hpost

theorem meetsOr_pure {a : α} :
    proto.MeetsOr g (pure a : ExceptT ε (Program Q R) α) ok failed ↔ ok a g := Iff.rfl

theorem meetsOr_throw {e : ε} :
    proto.MeetsOr g (throw e : ExceptT ε (Program Q R) α) ok failed ↔ failed e g := Iff.rfl

theorem meetsOr_statement {q : Q} {ok : R q → G → Prop} :
    proto.MeetsOr g (liftM (Program.statement q) : ExceptT ε (Program Q R) (R q)) ok failed ↔
      proto.Admits g q ∧ ∀ answer, ok answer (proto.after g q answer) := Iff.rfl

theorem meetsOr_bind {ok : β → G → Prop} :
    proto.MeetsOr g (x >>= k) ok failed ↔
      proto.MeetsOr g x (fun a g' => proto.MeetsOr g' (k a) ok failed) failed := by
  have hrun : (x >>= k).run = x.run.bind fun
      | .ok a => (k a).run
      | .error e => .done (.error e) := by
    refine congrArg x.run.bind (funext fun result => ?_)
    cases result with
    | ok a => rfl
    | error e => rfl
  rw [MeetsOr, hrun, meets_bind]
  constructor
  · refine fun h => Meets.mono h fun result g' hpost => ?_
    cases result with
    | ok a => exact hpost
    | error e => exact hpost
  · refine fun h => Meets.mono h fun result g' hpost => ?_
    cases result with
    | ok a => exact hpost
    | error e => exact hpost

theorem meetsOr_tryCatch {handle : ε → ExceptT ε (Program Q R) α} :
    proto.MeetsOr g (tryCatch x handle) ok failed ↔
      proto.MeetsOr g x ok fun e g' => proto.MeetsOr g' (handle e) ok failed := by
  have hrun : (tryCatch x handle).run = x.run.bind fun
      | .ok a => .done (.ok a)
      | .error e => (handle e).run := by
    refine congrArg x.run.bind (funext fun result => ?_)
    cases result with
    | ok a => rfl
    | error e => rfl
  rw [MeetsOr, hrun, meets_bind]
  constructor
  · refine fun h => Meets.mono h fun result g' hpost => ?_
    cases result with
    | ok a => exact hpost
    | error e => exact hpost
  · refine fun h => Meets.mono h fun result g' hpost => ?_
    cases result with
    | ok a => exact hpost
    | error e => exact hpost

/-- Sequencing, from what is known of the first program. -/
theorem MeetsOr.bind {mid : α → G → Prop} {ok : β → G → Prop}
    (hx : proto.MeetsOr g x mid failed')
    (hk : ∀ a g', mid a g' → proto.MeetsOr g' (k a) ok failed)
    (hfailed : ∀ e g', failed' e g' → failed e g') :
    proto.MeetsOr g (x >>= k) ok failed :=
  meetsOr_bind.mpr (hx.mono hk hfailed)

theorem MeetsOr.tryCatch {mid : ε → G → Prop} {handle : ε → ExceptT ε (Program Q R) α}
    (hx : proto.MeetsOr g x ok mid)
    (hhandle : ∀ e g', mid e g' → proto.MeetsOr g' (handle e) ok failed) :
    proto.MeetsOr g (tryCatch x handle) ok failed :=
  meetsOr_tryCatch.mpr (hx.mono (fun _ _ h => h) hhandle)

end Fallible

variable (proto) in
/-- Whichever way the program ends, the ghost state is what it was before. -/
def Keeps (g : G) (x : ExceptT ε (Program Q R) α) : Prop :=
  proto.MeetsOr g x (fun _ g' => g' = g) fun _ g' => g' = g

section Keeps

variable {x : ExceptT ε (Program Q R) α} {k : α → ExceptT ε (Program Q R) β}

theorem Keeps.pure (a : α) : proto.Keeps g (pure a : ExceptT ε (Program Q R) α) :=
  meetsOr_pure.mpr rfl

theorem Keeps.throw (e : ε) : proto.Keeps g (throw e : ExceptT ε (Program Q R) α) :=
  meetsOr_throw.mpr rfl

theorem Keeps.statement {q : Q} (hadmits : proto.Admits g q)
    (hafter : ∀ answer, proto.after g q answer = g) :
    proto.Keeps g (liftM (Program.statement q) : ExceptT ε (Program Q R) (R q)) :=
  meetsOr_statement.mpr ⟨hadmits, hafter⟩

theorem Keeps.bind (hx : proto.Keeps g x) (hk : ∀ a, proto.Keeps g (k a)) :
    proto.Keeps g (x >>= k) :=
  MeetsOr.bind hx (fun a _ hg' => hg' ▸ hk a) fun _ _ hg' => hg'

theorem Keeps.tryCatch {handle : ε → ExceptT ε (Program Q R) α} (hx : proto.Keeps g x)
    (hhandle : ∀ e, proto.Keeps g (handle e)) : proto.Keeps g (tryCatch x handle) :=
  MeetsOr.tryCatch hx fun e _ hg' => hg' ▸ hhandle e

theorem Keeps.run (h : proto.Keeps g x) : proto.Meets g x.run fun _ g' => g' = g := by
  refine Meets.mono h fun result g' hpost => ?_
  cases result with
  | ok a => exact hpost
  | error e => exact hpost

variable (proto) in
/-- The program does not fail, and the ghost state is what it was before. -/
def Steady (g : G) (x : ExceptT ε (Program Q R) α) : Prop :=
  proto.MeetsOr g x (fun _ g' => g' = g) fun _ _ => False

theorem Steady.keeps (h : proto.Steady g x) : proto.Keeps g x :=
  MeetsOr.mono h (fun _ _ hg' => hg') fun _ _ hfalse => hfalse.elim

theorem Steady.pure (a : α) : proto.Steady g (pure a : ExceptT ε (Program Q R) α) :=
  meetsOr_pure.mpr rfl

theorem Steady.statement {q : Q} (hadmits : proto.Admits g q)
    (hafter : ∀ answer, proto.after g q answer = g) :
    proto.Steady g (liftM (Program.statement q) : ExceptT ε (Program Q R) (R q)) :=
  meetsOr_statement.mpr ⟨hadmits, hafter⟩

theorem Steady.bind (hx : proto.Steady g x) (hk : ∀ a, proto.Steady g (k a)) :
    proto.Steady g (x >>= k) :=
  MeetsOr.bind hx (fun a _ hg' => hg' ▸ hk a) fun _ _ hfalse => hfalse

/-- In front of a program, it changes nothing for it. -/
theorem Steady.meetsOr_bind {ok : β → G → Prop} {failed : ε → G → Prop} (hx : proto.Steady g x)
    (hk : ∀ a, proto.MeetsOr g (k a) ok failed) : proto.MeetsOr g (x >>= k) ok failed :=
  MeetsOr.bind hx (fun a _ hg' => hg' ▸ hk a) fun _ _ hfalse => hfalse.elim

end Keeps

end Protocol

end Strikedge.Machine
