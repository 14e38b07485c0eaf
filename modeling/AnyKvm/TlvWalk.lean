import AnyKvm.Outcome

/-! Walking over attributes laid out as type, length and padded value.
The walk is the loop as it is written with positions and panicking reads; it is shown to be a
`for` loop over the list of attributes that it meets. -/
namespace AnyKvm
namespace TlvWalk

open Outcome

variable {ε σ : Type}

/-- An attribute in a packet: its type and where its value stands. -/
structure Attr where
  typ : UInt16
  start : ℕ
  len : ℕ
  deriving DecidableEq, Repr

/-- Lengths rounded up to the next multiple of four. -/
def align4 (len : ℕ) : ℕ := (len + 3) / 4 * 4

/-- One pass for each attribute from `pos` on, until fewer than four bytes are left before `stop`
or a value runs out of the packet. The first argument bounds the number of passes. -/
def walk (pkt : Bytes) (stop : ℕ) (body : Attr → σ → Outcome ε (ForInStep σ)) :
    ℕ → ℕ → σ → Outcome ε σ
  | 0,_,_ => .panicked
  | fuel + 1,pos,s =>
    if pos + 4 ≤ stop then do
      let t₀ ← index pkt pos
      let t₁ ← index pkt (pos + 1)
      let l₀ ← index pkt (pos + 2)
      let l₁ ← index pkt (pos + 3)
      let len := (Bytes.u16FromBeBytes l₀ l₁).toNat
      if pos + 4 + len > pkt.length then .ok s
      else do
        match ← body ⟨Bytes.u16FromBeBytes t₀ t₁,pos + 4,len⟩ s with
        | .done s => .ok s
        | .yield s => walk pkt stop body fuel (pos + (4 + align4 len)) s
    else .ok s

/-- The attribute whose header stands at a position. -/
def attrAt (pkt : Bytes) (pos : ℕ) : Attr where
  typ := Bytes.u16FromBeBytes (pkt.getD pos 0) (pkt.getD (pos + 1) 0)
  start := pos + 4
  len := (Bytes.u16FromBeBytes (pkt.getD (pos + 2) 0) (pkt.getD (pos + 3) 0)).toNat

/-- The attributes that a walk from `pos` meets. -/
def attrs (pkt : Bytes) (stop : ℕ) : ℕ → ℕ → List Attr
  | 0,_ => []
  | fuel + 1,pos =>
    let attr := attrAt pkt pos
    if pos + 4 ≤ stop ∧ attr.start + attr.len ≤ pkt.length then
      attr :: attrs pkt stop fuel (pos + (4 + align4 attr.len))
    else []

def value (pkt : Bytes) (attr : Attr) : Bytes := (pkt.drop attr.start).take attr.len

theorem walk_succ {pkt : Bytes} {stop : ℕ} (body : Attr → σ → Outcome ε (ForInStep σ))
    (hstop : stop ≤ pkt.length) (fuel pos : ℕ) (s : σ) :
    walk pkt stop body (fuel + 1) pos s =
      if pos + 4 ≤ stop ∧ (attrAt pkt pos).start + (attrAt pkt pos).len ≤ pkt.length then
        body (attrAt pkt pos) s >>= fun
          | .done s => .ok s
          | .yield s => walk pkt stop body fuel (pos + (4 + align4 (attrAt pkt pos).len)) s
      else .ok s := by
  rw [walk]
  by_cases h : pos + 4 ≤ stop
  · rw [if_pos h,index_of_lt (by omega : pos < pkt.length),
      index_of_lt (by omega : pos + 1 < pkt.length),index_of_lt (by omega : pos + 2 < pkt.length),
      index_of_lt (by omega : pos + 3 < pkt.length)]
    simp only [ok_bind]
    change (if (attrAt pkt pos).start + (attrAt pkt pos).len > pkt.length then _ else _) = _
    by_cases hlen : (attrAt pkt pos).start + (attrAt pkt pos).len ≤ pkt.length
    · rw [if_neg (Nat.not_lt.mpr hlen),if_pos (And.intro h hlen)]
      rfl
    · rw [if_pos (Nat.not_le.mp hlen),if_neg fun hc => hlen (And.right hc)]
  · rw [if_neg h,if_neg fun hc => h (And.left hc)]

/-- With enough passes allowed, a walk inside the packet is a `for` loop over its attributes: of
itself it neither panics nor goes on for ever. -/
theorem walk_eq_forIn {pkt : Bytes} {stop : ℕ} (body : Attr → σ → Outcome ε (ForInStep σ))
    (hstop : stop ≤ pkt.length) (fuel pos : ℕ) (hpos : 0 < fuel) (hfuel : stop < pos + 4 * fuel)
    (s : σ) : walk pkt stop body fuel pos s = forIn (attrs pkt stop fuel pos) s body := by
  induction fuel generalizing pos s with
  | zero => exact absurd hpos (Nat.lt_irrefl 0)
  | succ fuel ih =>
    rw [walk_succ body hstop,attrs]
    split
    · rename_i h
      rw [List.forIn_cons]
      congr 1
      funext r
      cases r with
      | done s => rfl
      | yield s => exact ih _ (by omega) (by omega) s
    · rfl

theorem attrs_within {pkt : Bytes} {stop fuel pos : ℕ} {attr : Attr}
    (h : attr ∈ attrs pkt stop fuel pos) : attr.start + attr.len ≤ pkt.length := by
  induction fuel generalizing pos with
  | zero => cases h
  | succ fuel ih =>
    unfold attrs at h
    simp only at h
    split at h
    · rename_i hc
      rcases List.mem_cons.mp h with rfl | h
      · exact hc.2
      · exact ih h
    · cases h

def fitting (pkt : Bytes) (stop : ℕ) : ℕ → ℕ → List Attr
  | 0,_ => []
  | fuel + 1,pos =>
    let attr := attrAt pkt pos
    if pos + 4 ≤ stop ∧ attr.start + attr.len ≤ stop then
      attr :: fitting pkt stop fuel (pos + (4 + align4 attr.len))
    else []

/-- The attribute that begins before `stop` and ends behind it. -/
def cut? (pkt : Bytes) (stop : ℕ) : ℕ → ℕ → Option Attr
  | 0,_ => none
  | fuel + 1,pos =>
    let attr := attrAt pkt pos
    if pos + 4 ≤ stop then
      if attr.start + attr.len ≤ stop then cut? pkt stop fuel (pos + (4 + align4 attr.len)) else some attr
    else none

theorem le_align4 (len : ℕ) : len ≤ align4 len := by
  unfold align4
  omega

theorem attrs_behind {pkt : Bytes} {stop fuel pos : ℕ} (h : stop < pos + 4) :
    attrs pkt stop fuel pos = [] := by
  cases fuel with
  | zero => rfl
  | succ fuel => exact if_neg fun hc => absurd hc.1 (Nat.not_le.mpr h)

/-- A walk meets the attributes before `stop`, and the one across it if the packet is long enough. -/
theorem attrs_eq_fitting (pkt : Bytes) {stop : ℕ} (hstop : stop ≤ pkt.length) (fuel pos : ℕ) :
    attrs pkt stop fuel pos = fitting pkt stop fuel pos ++
      ((cut? pkt stop fuel pos).filter fun attr => attr.start + attr.len ≤ pkt.length).toList := by
  induction fuel generalizing pos with
  | zero => rfl
  | succ fuel ih =>
    have halign := le_align4 (attrAt pkt pos).len
    have hstart : (attrAt pkt pos).start = pos + 4 := rfl
    rw [attrs,fitting,cut?]
    by_cases hpos : pos + 4 ≤ stop
    · by_cases hfit : (attrAt pkt pos).start + (attrAt pkt pos).len ≤ stop
      · rw [if_pos ⟨hpos,Nat.le_trans hfit hstop⟩,if_pos ⟨hpos,hfit⟩,if_pos hpos,if_pos hfit,ih]
        rfl
      · have hcross : ¬ (pos + 4 ≤ stop ∧ (attrAt pkt pos).start + (attrAt pkt pos).len ≤ stop) :=
          fun h => hfit h.2
        rw [if_neg hcross,if_pos hpos,if_neg hfit]
        by_cases hlen : (attrAt pkt pos).start + (attrAt pkt pos).len ≤ pkt.length
        · rw [if_pos ⟨hpos,hlen⟩,attrs_behind (by omega),Option.filter_some,if_pos (decide_eq_true hlen)]
          rfl
        · rw [if_neg fun h => hlen h.2,Option.filter_some,if_neg (by simpa using hlen)]
          rfl
    · rw [if_neg fun h => hpos h.1,if_neg fun h => hpos h.1,if_neg hpos]
      rfl

theorem attrAt_take {pkt : Bytes} {stop pos : ℕ} (h : pos + 4 ≤ stop) :
    attrAt (pkt.take stop) pos = attrAt pkt pos := by
  have hread : ∀ i, i < stop → (pkt.take stop).getD i 0 = pkt.getD i 0 := by
    intro i hi
    rw [List.getD_eq_getElem?_getD,List.getD_eq_getElem?_getD,List.getElem?_take_of_lt hi]
  rw [attrAt,attrAt,hread pos (by omega),hread (pos + 1) (by omega),hread (pos + 2) (by omega),
    hread (pos + 3) (by omega)]

/-- In a packet that ends at `stop`, the attributes before it are all there is. -/
theorem attrs_take (pkt : Bytes) {stop : ℕ} (hstop : stop ≤ pkt.length) (fuel pos : ℕ) :
    attrs (pkt.take stop) stop fuel pos = fitting pkt stop fuel pos := by
  have hlength : (pkt.take stop).length = stop := by
    rw [List.length_take,Nat.min_eq_left hstop]
  induction fuel generalizing pos with
  | zero => rfl
  | succ fuel ih =>
    rw [attrs,fitting]
    rw [hlength]
    by_cases hpos : pos + 4 ≤ stop
    · rw [attrAt_take hpos,ih]
    · rw [if_neg fun h => hpos h.1,if_neg fun h => hpos h.1]

theorem fitting_fuel (pkt : Bytes) {stop fuel fuel' pos : ℕ} (h : stop < pos + 4 * fuel)
    (h' : stop < pos + 4 * fuel') : fitting pkt stop fuel pos = fitting pkt stop fuel' pos := by
  induction fuel generalizing fuel' pos with
  | zero =>
    cases fuel' with
    | zero => rfl
    | succ fuel' => exact (if_neg fun hc => by omega).symm
  | succ fuel ih =>
    cases fuel' with
    | zero => exact if_neg fun hc => by omega
    | succ fuel' =>
      rw [fitting,fitting]
      split
      · exact congrArg _ (ih (by omega) (by omega))
      · rfl

theorem fitting_within {pkt : Bytes} {stop fuel pos : ℕ} {attr : Attr}
    (h : attr ∈ fitting pkt stop fuel pos) : pos + 4 ≤ attr.start ∧ attr.start + attr.len ≤ stop := by
  induction fuel generalizing pos with
  | zero => cases h
  | succ fuel ih =>
    unfold fitting at h
    simp only at h
    split at h
    · rename_i hc
      rcases List.mem_cons.mp h with rfl | h
      · exact ⟨Nat.le_refl _,hc.2⟩
      · have hrest := ih h
        exact ⟨by omega,hrest.2⟩
    · cases h

theorem cut?_across {pkt : Bytes} {stop fuel pos : ℕ} {attr : Attr}
    (h : cut? pkt stop fuel pos = some attr) : stop < attr.start + attr.len := by
  induction fuel generalizing pos with
  | zero => cases h
  | succ fuel ih =>
    unfold cut? at h
    simp only at h
    split at h
    · split at h
      · exact ih h
      · cases h
        omega
    · cases h

theorem forIn_eq_foldl {body : Attr → σ → Outcome ε (ForInStep σ)} {f : σ → Attr → σ} {as : List Attr}
    (h : ∀ attr ∈ as, ∀ s, body attr s = .ok (.yield (f s attr))) (s : σ) :
    forIn as s body = .ok (as.foldl f s) := by
  induction as generalizing s with
  | nil => rfl
  | cons attr as ih =>
    rw [List.forIn_cons,h attr (List.mem_cons_self ..),ok_bind]
    exact ih (fun a ha => h a (List.mem_cons_of_mem attr ha)) _

end TlvWalk
end AnyKvm
