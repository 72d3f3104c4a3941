import Mathlib.Logic.Basic

inductive Outcome (A : Type) where
  | ok (a : A)
  | raised
  | timeout

-- a computation over a state that an exception does not roll back
def Exec (S A : Type) : Type := S → Outcome A × S

namespace Exec

variable {S A B : Type}

def ret (a : A) : Exec S A := fun s => (.ok a, s)

def raise : Exec S A := fun s => (.raised, s)

def timeout : Exec S A := fun s => (.timeout, s)

def andThen (m : Exec S A) (f : A → Exec S B) : Exec S B := fun s =>
  match m s with
  | (.ok a, t) => f a t
  | (.raised, t) => (.raised, t)
  | (.timeout, t) => (.timeout, t)

instance : Monad (Exec S) where
  pure := ret
  bind := andThen

def modify (f : S → S) : Exec S Unit := fun s => (.ok (), f s)

def gets (f : S → A) : Exec S A := fun s => (.ok (f s), s)

def ofOption : Option A → Exec S A
  | some a => ret a
  | none => raise

-- `handler` runs from the state the exception left
def attempt (m handler : Exec S A) : Exec S A := fun s =>
  match m s with
  | (.ok a, t) => (.ok a, t)
  | (.raised, t) => handler t
  | (.timeout, t) => (.timeout, t)

-- `cleanup` runs however `m` ended, and its own exception wins
def finallyDo (m : Exec S A) (cleanup : Exec S Unit) : Exec S A := fun s =>
  andThen cleanup (fun _ t => ((m s).1, t)) (m s).2

def Keeps (P : S → Prop) (m : Exec S A) : Prop := ∀ s, P s → P (m s).2

def Returns (m : Exec S A) (Q : A → Prop) : Prop := ∀ s a, (m s).1 = .ok a → Q a

variable {P : S → Prop} {m : Exec S A} {f : A → Exec S B} {Q : A → Prop} {Q' : B → Prop}

theorem keeps_pure (a : A) : Keeps P (pure a : Exec S A) := fun _ h => h

theorem keeps_raise : Keeps P (raise : Exec S A) := fun _ h => h

theorem keeps_timeout : Keeps P (timeout : Exec S A) := fun _ h => h

theorem keeps_gets (f : S → A) : Keeps P (gets f) := fun _ h => h

theorem keeps_modify {f : S → S} (h : ∀ s, P s → P (f s)) : Keeps P (modify f) := h

theorem keeps_ofOption (o : Option A) : Keeps P (ofOption o : Exec S A) := by
  cases o with
  | none => exact keeps_raise
  | some a => exact keeps_pure a

theorem Keeps.bind_of (hm : Keeps P m) (hq : Returns m Q) (hf : ∀ a, Q a → Keeps P (f a)) :
    Keeps P (m >>= f) := by
  intro s hs
  have hbind : (m >>= f) s = andThen m f s := rfl
  have hkept := hm s hs
  have hreturned := hq s
  rw [hbind, andThen]
  cases hrun : m s with
  | mk outcome t =>
    rw [hrun] at hkept hreturned
    cases outcome with
    | ok a => exact hf a (hreturned a rfl) t hkept
    | raised => exact hkept
    | timeout => exact hkept

theorem returns_trivial (m : Exec S A) : Returns m (fun _ => True) := fun _ _ _ => trivial

theorem Keeps.bind (hm : Keeps P m) (hf : ∀ a, Keeps P (f a)) : Keeps P (m >>= f) :=
  hm.bind_of (returns_trivial m) (fun a _ => hf a)

theorem Keeps.attempt {handler : Exec S A} (hm : Keeps P m) (hhandler : Keeps P handler) :
    Keeps P (attempt m handler) := by
  intro s hs
  have hkept := hm s hs
  rw [Exec.attempt]
  cases hrun : m s with
  | mk outcome t =>
    rw [hrun] at hkept
    cases outcome with
    | ok a => exact hkept
    | raised => exact hhandler t hkept
    | timeout => exact hkept

theorem returns_pure {a : A} (h : Q a) : Returns (pure a : Exec S A) Q := by
  intro s b hb
  cases hb
  exact h

theorem returns_timeout : Returns (timeout : Exec S A) Q := by
  intro s a ha
  cases ha

theorem Returns.bind (hm : Returns m Q) (hf : ∀ a, Q a → Returns (f a) Q') :
    Returns (m >>= f) Q' := by
  intro s b hb
  have hbind : (m >>= f) s = andThen m f s := rfl
  have hreturned := hm s
  rw [hbind, andThen] at hb
  cases hrun : m s with
  | mk outcome t =>
    rw [hrun] at hb hreturned
    cases outcome with
    | ok a => exact hf a (hreturned a rfl) t b hb
    | raised => cases hb
    | timeout => cases hb

section

theorem bind_apply (m : Exec S A) (f : A → Exec S B) (s : S) : (m >>= f) s = andThen m f s := rfl

theorem bind_of_ok {s t : S} {a : A} (h : m s = (.ok a, t)) : (m >>= f) s = f a t := by
  rw [bind_apply, andThen, h]

theorem bind_pure_of (m : Exec S A) : m >>= pure = m := by
  funext s
  rw [bind_apply, andThen]
  rcases m s with ⟨outcome, t⟩
  cases outcome <;> rfl

theorem bind_bind {C : Type} (m : Exec S A) (f : A → Exec S B) (g : B → Exec S C) :
    m >>= f >>= g = m >>= fun a => f a >>= g := by
  funext s
  rw [bind_apply, andThen, bind_apply, bind_apply, andThen, andThen]
  rcases m s with ⟨outcome, t⟩
  cases outcome <;> rfl

instance : LawfulMonad (Exec S) :=
  LawfulMonad.mk' (Exec S) bind_pure_of (fun _ _ => rfl) bind_bind

end

section

variable {m' : Exec S A} {f' : A → Exec S B}

def AgreesOn (P : S → Prop) (m m' : Exec S A) : Prop := ∀ s, P s → m s = m' s

theorem agreesOn_refl (P : S → Prop) (m : Exec S A) : AgreesOn P m m := fun _ _ => rfl

theorem AgreesOn.bind (hm : AgreesOn P m m') (hkeeps : Keeps P m')
    (hf : ∀ a, AgreesOn P (f a) (f' a)) : AgreesOn P (m >>= f) (m' >>= f') := by
  intro s hs
  have hkept := hkeeps s hs
  rw [bind_apply, bind_apply, andThen, andThen, hm s hs]
  cases hrun : m' s with
  | mk outcome t =>
    rw [hrun] at hkept
    cases outcome with
    | ok a => exact hf a t hkept
    | raised => rfl
    | timeout => rfl

-- a computation that neither reads nor writes what `g` changes
def Commutes (g : S → S) (m : Exec S A) : Prop := ∀ s, m (g s) = ((m s).1, g (m s).2)

variable {g : S → S}

theorem commutes_pure (a : A) : Commutes g (pure a : Exec S A) := fun _ => rfl

theorem commutes_modify {h : S → S} (hgh : ∀ s, h (g s) = g (h s)) : Commutes g (modify h) := by
  intro s
  rw [modify, hgh s]
  rfl

theorem Commutes.bind (hm : Commutes g m) (hf : ∀ a, Commutes g (f a)) :
    Commutes g (m >>= f) := by
  intro s
  rw [bind_apply, bind_apply, andThen, andThen, hm s]
  cases hrun : m s with
  | mk outcome t =>
    cases outcome with
    | ok a => exact hf a t
    | raised => rfl
    | timeout => rfl

end

section

-- partial correctness: nothing is said of a run that raises
def KeepsOnReturn (P : S → Prop) (m : Exec S A) : Prop :=
  ∀ s a t, m s = (.ok a, t) → P s → P t

theorem Keeps.onReturn (hm : Keeps P m) : KeepsOnReturn P m := by
  intro s a t hrun hs
  have hkept := hm s hs
  rwa [hrun] at hkept

theorem keepsOnReturn_raise : KeepsOnReturn P (raise : Exec S A) := fun _ _ _ h => by cases h

theorem ok_of_bind {s t : S} {b : B} (h : (m >>= f) s = (.ok b, t)) :
    ∃ a u, m s = (.ok a, u) ∧ f a u = (.ok b, t) := by
  rw [bind_apply, andThen] at h
  cases hrun : m s with
  | mk outcome u =>
    rw [hrun] at h
    cases outcome with
    | ok a => exact ⟨a, u, rfl, h⟩
    | raised => cases h
    | timeout => cases h

theorem KeepsOnReturn.bind (hm : KeepsOnReturn P m) (hf : ∀ a, KeepsOnReturn P (f a)) :
    KeepsOnReturn P (m >>= f) := by
  intro s b t hrun hs
  obtain ⟨a, u, hfirst, hrest⟩ := ok_of_bind hrun
  exact hf a u b t hrest (hm s a u hfirst hs)

theorem KeepsOnReturn.finallyDo {cleanup : Exec S Unit} (hm : KeepsOnReturn P m)
    (hcleanup : KeepsOnReturn P cleanup) : KeepsOnReturn P (finallyDo m cleanup) := by
  intro s a t hrun hs
  obtain ⟨x, u, hclean, hret⟩ := ok_of_bind (f := fun _ u => ((m s).1, u)) hrun
  cases hinner : m s with
  | mk outcome v =>
    rw [hinner] at hclean hret
    cases hret
    exact hcleanup v x t hclean (hm s a v hinner hs)

end

end Exec
