import Mathlib.Data.List.Basic

/-! Calls that return a value, return an error, or panic.
Reads of a byte slice panic out of range, as an index or a range does in the source language. -/
namespace AnyKvm

abbrev Bytes := List UInt8

/-- What a call ends in. -/
inductive Outcome (ε α : Type)
  | ok (value : α)
  | err (error : ε)
  | panicked
  deriving DecidableEq, Repr

/-- The outcome of a function that has no error to return. -/
abbrev Panicking := Outcome Empty

namespace Outcome

variable {ε δ α β : Type}

def bind (x : Outcome ε α) (f : α → Outcome ε β) : Outcome ε β :=
  match x with
  | ok a => f a
  | err e => err e
  | panicked => panicked

instance : Monad (Outcome ε) where
  pure := ok
  bind := bind

/-- `if let Ok(value) = ..`: the error is dropped. -/
def attempt : Outcome ε α → Outcome δ (Option α)
  | ok a => ok (some a)
  | err _ => ok none
  | panicked => panicked

/-- The conversion of the error that `?` makes. -/
def mapErr (f : ε → δ) : Outcome ε α → Outcome δ α
  | ok a => ok a
  | err e => err (f e)
  | panicked => panicked

instance (x : Outcome ε α) : Decidable (x = panicked) :=
  match x with
  | ok _ => isFalse fun h => nomatch h
  | err _ => isFalse fun h => nomatch h
  | panicked => isTrue rfl

def index (buf : Bytes) (i : ℕ) : Outcome ε UInt8 :=
  match buf[i]? with
  | some b => ok b
  | none => panicked

def slice (buf : Bytes) (i j : ℕ) : Outcome ε Bytes :=
  if i ≤ j ∧ j ≤ buf.length then ok ((buf.drop i).take (j - i)) else panicked

def sliceFrom (buf : Bytes) (i : ℕ) : Outcome ε Bytes :=
  if i ≤ buf.length then ok (buf.drop i) else panicked

@[simp] theorem pure_eq (a : α) : (pure a : Outcome ε α) = ok a := rfl

@[simp] theorem ok_bind (a : α) (f : α → Outcome ε β) : (ok a >>= f) = f a := rfl

@[simp] theorem err_bind (e : ε) (f : α → Outcome ε β) : (err e >>= f) = err e := rfl

@[simp] theorem panicked_bind (f : α → Outcome ε β) : ((panicked : Outcome ε α) >>= f) = panicked := rfl

theorem bind_bind {γ : Type} (x : Outcome ε α) (f : α → Outcome ε β) (g : β → Outcome ε γ) :
    (x >>= f >>= g) = (x >>= fun a => f a >>= g) := by
  cases x <;> rfl

/-- Two continuations that agree on the value that is returned. -/
theorem bind_congr {x : Outcome ε α} {f g : α → Outcome ε β} (h : ∀ a, x = ok a → f a = g a) :
    (x >>= f) = (x >>= g) := by
  cases x with
  | ok a => exact h a rfl
  | err e => rfl
  | panicked => rfl

theorem bind_eq_panicked {x : Outcome ε α} {f : α → Outcome ε β} :
    (x >>= f) = panicked ↔ x = panicked ∨ ∃ a, x = ok a ∧ f a = panicked := by
  cases x <;> simp

theorem bind_eq_ok {x : Outcome ε α} {f : α → Outcome ε β} {b : β} :
    (x >>= f) = ok b ↔ ∃ a, x = ok a ∧ f a = ok b := by
  cases x <;> simp

@[simp] theorem attempt_eq_panicked {x : Outcome ε α} :
    (x.attempt : Outcome δ (Option α)) = panicked ↔ x = panicked := by
  cases x <;> simp [attempt]

@[simp] theorem mapErr_eq_panicked {f : ε → δ} {x : Outcome ε α} :
    x.mapErr f = panicked ↔ x = panicked := by
  cases x <;> simp [mapErr]

@[simp] theorem index_eq_ok {buf : Bytes} {i : ℕ} {b : UInt8} :
    (index buf i : Outcome ε UInt8) = ok b ↔ buf[i]? = some b := by
  unfold index
  cases buf[i]? <;> simp

@[simp] theorem index_eq_panicked {buf : Bytes} {i : ℕ} :
    (index buf i : Outcome ε UInt8) = panicked ↔ buf.length ≤ i := by
  rw [← List.getElem?_eq_none_iff,index]
  cases buf[i]? <;> simp

theorem index_of_lt {buf : Bytes} {i : ℕ} (h : i < buf.length) :
    (index buf i : Outcome ε UInt8) = ok (buf.getD i 0) := by
  rw [index_eq_ok,List.getD_eq_getElem?_getD,List.getElem?_eq_getElem h]
  rfl

theorem slice_of_le {buf : Bytes} {i j : ℕ} (hij : i ≤ j) (hj : j ≤ buf.length) :
    (slice buf i j : Outcome ε Bytes) = ok ((buf.drop i).take (j - i)) :=
  if_pos ⟨hij,hj⟩

theorem sliceFrom_of_le {buf : Bytes} {i : ℕ} (h : i ≤ buf.length) :
    (sliceFrom buf i : Outcome ε Bytes) = ok (buf.drop i) :=
  if_pos h

/-- A call panics unless it `fits`; when it does not panic, it returns a value exactly if it `accepts`. -/
structure Decides (x : Outcome ε α) (fits accepts : Prop) : Prop where
  panicked : x = .panicked ↔ ¬ fits
  ok : fits → ((∃ a, x = .ok a) ↔ accepts)

theorem decides_ok (a : α) : (ok a : Outcome ε α).Decides True True :=
  ⟨by simp,by simp⟩

theorem decides_err (e : ε) : (err e : Outcome ε α).Decides True False :=
  ⟨by simp,by simp⟩

theorem decides_panicked : (panicked : Outcome ε α).Decides False False :=
  ⟨by simp,by simp⟩

theorem Decides.congr {x : Outcome ε α} {f f' a a' : Prop} (h : x.Decides f a) (hf : f ↔ f')
    (ha : f → (a ↔ a')) : x.Decides f' a' :=
  ⟨by rw [h.panicked,hf],fun h' => (h.ok (hf.mpr h')).trans (ha (hf.mpr h'))⟩

theorem Decides.bind {x : Outcome ε α} {g : α → Outcome ε β} {f f' a a' : Prop} (hx : x.Decides f a)
    (hg : ∀ v, x = .ok v → (g v).Decides f' a') :
    (x >>= g).Decides (f ∧ (a → f')) (a ∧ a') := by
  cases hv : x with
  | ok v =>
    have hf : f := not_not.mp fun hf => by simp [hx.panicked.mpr hf] at hv
    have ha : a := (hx.ok hf).mp ⟨v,hv⟩
    exact (hg v hv).congr (by simp [hf,ha]) fun _ => by simp [ha]
  | err e =>
    have hf : f := not_not.mp fun hf => by simp [hx.panicked.mpr hf] at hv
    have ha : ¬ a := fun ha => by
      obtain ⟨v,hv'⟩ := (hx.ok hf).mpr ha
      simp [hv'] at hv
    exact (decides_err e).congr (by simp [hf,ha]) fun _ => by simp [ha]
  | panicked =>
    have hf : ¬ f := hx.panicked.mp hv
    exact decides_panicked.congr (by simp [hf]) fun h => h.elim

theorem Decides.map {x : Outcome ε α} {f a : Prop} (hx : x.Decides f a) (g : α → β) :
    (x >>= fun v => .ok (g v)).Decides f a :=
  (hx.bind fun v _ => decides_ok (g v)).congr (by simp) fun _ => by simp

/-- Every value that a call returns has a property. -/
def Returns (x : Outcome ε α) (P : α → Prop) : Prop := ∀ a, x = .ok a → P a

theorem returns_ok {P : α → Prop} {a : α} (h : P a) : (ok a : Outcome ε α).Returns P := by
  intro b hb
  cases hb
  exact h

theorem returns_err {P : α → Prop} (e : ε) : (err e : Outcome ε α).Returns P := by
  intro b hb
  cases hb

theorem returns_bind {x : Outcome ε α} {f : α → Outcome ε β} {P : β → Prop}
    (h : ∀ a, x = .ok a → (f a).Returns P) : (x >>= f).Returns P := by
  intro b hb
  obtain ⟨a,ha,hf⟩ := bind_eq_ok.mp hb
  exact h a ha b hf

theorem returns_ite {c : Prop} [Decidable c] {x y : Outcome ε α} {P : α → Prop}
    (hx : c → x.Returns P) (hy : ¬ c → y.Returns P) : (if c then x else y).Returns P := by
  split
  · rename_i h
    exact hx h
  · rename_i h
    exact hy h

end Outcome

namespace Bytes

def u16FromBeBytes (hi lo : UInt8) : UInt16 := hi.toUInt16 <<< 8 ||| lo.toUInt16

def u32FromBeBytes (b₀ b₁ b₂ b₃ : UInt8) : UInt32 :=
  b₀.toUInt32 <<< 24 ||| b₁.toUInt32 <<< 16 ||| b₂.toUInt32 <<< 8 ||| b₃.toUInt32

def u64FromBeBytes (bytes : Bytes) : UInt64 :=
  bytes.foldl (fun acc b => acc <<< 8 ||| b.toUInt64) 0

end Bytes
end AnyKvm
