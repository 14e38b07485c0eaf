import AnyKvm.H264

/-! `webrtc.rs`: what the log says about the first frame of a session. -/
namespace AnyKvm
namespace H264

open AnnexB
open Outcome (index index_of_lt)

/-- Where a unit begins, if its start code is at `i`. -/
def nalStart (data : Bytes) (i : ℕ) : Panicking (Option ℕ) :=
  if i + 3 < data.length then do
    let b₀ ← index data i
    let b₁ ← index data (i + 1)
    let b₂ ← index data (i + 2)
    let b₃ ← index data (i + 3)
    .ok (if b₀ = 0 ∧ b₁ = 0 then
      if b₂ = 1 then some (i + 3)
      else if i + 4 ≤ data.length ∧ b₂ = 0 ∧ b₃ = 1 then some (i + 4)
      else none
    else none)
  else .ok none

/-- The type of a unit; a start code at the very end has none. -/
def nalTypeAt (data : Bytes) (nalStart : ℕ) : Panicking (List UInt8) :=
  if nalStart < data.length then do
    let header ← index data nalStart
    .ok [header &&& naluTypeBitmask]
  else .ok []

/-- The types of the units that the loop finds from `i` on. -/
def nalTypesLoop (data : Bytes) : ℕ → ℕ → Panicking (List UInt8)
  | 0, _ => .ok []
  | fuel + 1, i =>
    if i < data.length then do
      let start ← nalStart data i
      let types ← start.elim (.ok []) (nalTypeAt data)
      let rest ← nalTypesLoop data fuel (start.getD i + 1)
      .ok (types ++ rest)
    else .ok []

def nalName (nalType : UInt8) : String :=
  if nalType = 1 then "P-slice"
  else if nalType = 5 then "IDR"
  else if nalType = 6 then "SEI"
  else if nalType = 7 then "SPS"
  else if nalType = 8 then "PPS"
  else if nalType = 9 then "AUD"
  else "other"

def describeTypes (types : List UInt8) : String :=
  if types = [] then "none"
  else ", ".intercalate (types.map fun nalType => nalName nalType ++ "(" ++ toString nalType ++ ")")

def describeH264Nals (data : Bytes) : Panicking String := do
  let types ← nalTypesLoop data data.length 0
  .ok (describeTypes types)

/-- The types of the units in the bytes that are left. -/
def tailTypes : Bytes → List UInt8
  | b₀ :: b₁ :: b₂ :: b₃ :: rest =>
    if b₀ = 0 ∧ b₁ = 0 ∧ b₂ = 1 then (b₃ &&& naluTypeBitmask) :: tailTypes rest
    else if b₀ = 0 ∧ b₁ = 0 ∧ b₂ = 0 ∧ b₃ = 1 then
      match rest with
      | [] => []
      | header :: rest => (header &&& naluTypeBitmask) :: tailTypes rest
    else tailTypes (b₁ :: b₂ :: b₃ :: rest)
  | _ => []

theorem tailTypes_short {bs : Bytes} (h : bs.length ≤ 3) : tailTypes bs = [] := by
  unfold tailTypes
  split
  · simp only [List.length_cons] at h
    omega
  · rfl

theorem tailTypes_cons (b₀ b₁ b₂ b₃ : UInt8) (rest : Bytes) : tailTypes (b₀ :: b₁ :: b₂ :: b₃ :: rest) =
    if b₀ = 0 ∧ b₁ = 0 ∧ b₂ = 1 then (b₃ &&& naluTypeBitmask) :: tailTypes rest
    else if b₀ = 0 ∧ b₁ = 0 ∧ b₂ = 0 ∧ b₃ = 1 then
      rest.head?.toList.map (· &&& naluTypeBitmask) ++ tailTypes rest.tail
    else tailTypes (b₁ :: b₂ :: b₃ :: rest) := by
  conv_lhs => unfold tailTypes
  cases rest with
  | nil =>
    have hnil : tailTypes [].tail = [] := tailTypes_short (by decide)
    rw [hnil]
    rfl
  | cons header rest => rfl

variable {data bs rest : Bytes} {fuel i : ℕ}

theorem nalTypesLoop_end (fuel : ℕ) (h : data.length ≤ i) : nalTypesLoop data fuel i = .ok [] := by
  cases fuel with
  | zero => rfl
  | succ fuel => exact if_neg (Nat.not_lt.mpr h)

theorem drop_getD (h : i < data.length) : data.drop i = data.getD i 0 :: data.drop (i + 1) := by
  rw [List.drop_eq_getElem_cons h,List.getD_eq_getElem?_getD,List.getElem?_eq_getElem h,Option.getD_some]

theorem nalStart_short (h : data.length ≤ i + 3) : nalStart data i = .ok none := if_neg (Nat.not_lt.mpr h)

theorem nalStart_cons {b₀ b₁ b₂ b₃ : UInt8} (h : data.drop i = b₀ :: b₁ :: b₂ :: b₃ :: rest) :
    nalStart data i = .ok (if b₀ = 0 ∧ b₁ = 0 ∧ b₂ = 1 then some (i + 3)
      else if b₀ = 0 ∧ b₁ = 0 ∧ b₂ = 0 ∧ b₃ = 1 then some (i + 4) else none) := by
  have hlength : (data.drop i).length = data.length - i := List.length_drop
  have hindex : ∀ n b, (data.drop i)[n]? = some b → (index data (i + n) : Panicking UInt8) = .ok b := by
    intro n b hb
    rw [Outcome.index_eq_ok,← hb,List.getElem?_drop]
  rw [h] at hlength hindex
  simp only [List.length_cons] at hlength
  rw [nalStart,if_pos (by omega),← Nat.add_zero i,hindex 0 b₀ rfl,Outcome.ok_bind,Nat.add_zero,hindex 1 b₁ rfl,
    Outcome.ok_bind,hindex 2 b₂ rfl,Outcome.ok_bind,hindex 3 b₃ rfl,Outcome.ok_bind]
  have hfour : i + 4 ≤ data.length := by omega
  simp only [hfour,true_and]
  split_ifs <;> tauto

/-- The loop sees just the bytes that are left. -/
theorem nalTypesLoop_eq (hfuel : data.length ≤ fuel + i) : nalTypesLoop data fuel i = .ok (tailTypes (data.drop i)) := by
  induction fuel generalizing i with
  | zero =>
    rw [nalTypesLoop_end 0 (by omega),List.drop_eq_nil_of_le (by omega)]
    rfl
  | succ fuel ih =>
    by_cases hend : data.length ≤ i
    · rw [nalTypesLoop_end _ hend,List.drop_eq_nil_of_le hend]
      rfl
    rw [nalTypesLoop,if_pos (Nat.lt_of_not_le hend)]
    by_cases hshort : data.length ≤ i + 3
    · rw [nalStart_short hshort,Outcome.ok_bind,Option.elim_none,Outcome.ok_bind,Option.getD_none,ih (by omega),
        Outcome.ok_bind,tailTypes_short (by rw [List.length_drop]; omega),
        tailTypes_short (by rw [List.length_drop]; omega)]
      rfl
    obtain ⟨b₀,b₁,b₂,b₃,rest,hrest⟩ : ∃ b₀ b₁ b₂ b₃ rest, data.drop i = b₀ :: b₁ :: b₂ :: b₃ :: rest :=
      ⟨_,_,_,_,_,by rw [drop_getD (by omega : i < data.length),drop_getD (by omega : i + 1 < data.length),
        drop_getD (by omega : i + 2 < data.length),drop_getD (by omega : i + 3 < data.length)]⟩
    have hdrop : ∀ n, data.drop (i + n) = (b₀ :: b₁ :: b₂ :: b₃ :: rest).drop n := by
      intro n
      rw [← hrest,List.drop_drop]
    have htype : ∀ n, nalTypeAt data (i + n) =
        .ok (((b₀ :: b₁ :: b₂ :: b₃ :: rest).drop n).head?.toList.map (· &&& naluTypeBitmask)) := by
      intro n
      rw [← hdrop,nalTypeAt]
      split
      next hlt =>
        rw [index_of_lt hlt,drop_getD hlt]
        rfl
      next hge =>
        rw [List.drop_eq_nil_of_le (Nat.le_of_not_lt hge)]
        rfl
    rw [nalStart_cons hrest,hrest,tailTypes_cons,Outcome.ok_bind]
    by_cases hthree : b₀ = 0 ∧ b₁ = 0 ∧ b₂ = 1
    · rw [if_pos hthree,if_pos hthree,Option.elim_some,htype 3,Outcome.ok_bind,Option.getD_some,ih (by omega),
        Outcome.ok_bind,hdrop 4]
      rfl
    rw [if_neg hthree,if_neg hthree]
    by_cases hfour : b₀ = 0 ∧ b₁ = 0 ∧ b₂ = 0 ∧ b₃ = 1
    · rw [if_pos hfour,if_pos hfour,Option.elim_some,htype 4,Outcome.ok_bind,Option.getD_some,ih (by omega),
        Outcome.ok_bind,hdrop 5]
      cases rest <;> rfl
    · rw [if_neg hfour,if_neg hfour,Option.elim_none,Outcome.ok_bind,Option.getD_none,ih (by omega),Outcome.ok_bind,
        hdrop 1]
      rfl

theorem tailTypes_startCode (zeros : ℕ) (header : UInt8) (rest : Bytes) :
    tailTypes (startCode zeros ++ header :: rest) = (header &&& naluTypeBitmask) :: tailTypes rest := by
  induction zeros with
  | zero => exact (tailTypes_cons 0 0 1 header rest).trans (if_pos (by decide))
  | succ zeros ih =>
    cases zeros with
    | zero => exact (tailTypes_cons 0 0 0 1 (header :: rest)).trans ((if_neg (by decide)).trans (if_pos (by decide)))
    | succ zeros =>
      rw [← ih]
      exact (tailTypes_cons 0 0 0 0 _).trans ((if_neg (by decide)).trans (if_neg (by decide)))

/-- The zeros of a start code do not reach back into a unit. -/
theorem no_startCode {b b₁ b₂ b₃ : UInt8} {tail : Bytes} (hclean : Clean 0 (b :: bs))
    (hlast : (b :: bs).getLast? ≠ some 0) (htail : bs ++ rest = b₁ :: b₂ :: b₃ :: tail) :
    ¬ (b = 0 ∧ b₁ = 0 ∧ b₂ = 1) ∧ ¬ (b = 0 ∧ b₁ = 0 ∧ b₂ = 0 ∧ b₃ = 1) := by
  rcases bs with _ | ⟨c₁,_ | ⟨c₂,cs⟩⟩
  · have hzero : b ≠ 0 := fun hzero => hlast (by rw [hzero]; rfl)
    exact ⟨fun h => hzero h.1,fun h => hzero h.1⟩
  · cases htail
    have hzero : b₁ ≠ 0 := fun hzero => hlast (by rw [hzero]; rfl)
    exact ⟨fun h => hzero h.2.1,fun h => hzero h.2.1⟩
  · obtain ⟨rfl,rfl,hcs⟩ : c₁ = b₁ ∧ c₂ = b₂ ∧ cs ++ rest = b₃ :: tail := by
      simpa only [List.cons_append,List.cons.injEq] using htail
    refine ⟨?_,?_⟩
    · rintro ⟨rfl,rfl,rfl⟩
      exact hclean ⟨[],cs,rfl⟩
    · rintro ⟨rfl,rfl,rfl,rfl⟩
      cases cs with
      | nil => exact hlast rfl
      | cons c₃ cs =>
        have hone : c₃ = 1 := (List.cons.inj hcs).1
        subst hone
        exact hclean ⟨[0],cs,rfl⟩

theorem tailTypes_unit (hclean : Clean 0 bs) (hlast : bs.getLast? ≠ some 0) : tailTypes (bs ++ rest) = tailTypes rest := by
  induction bs with
  | nil => rfl
  | cons b bs ih =>
    have hrest : tailTypes (bs ++ rest) = tailTypes rest := by
      cases bs with
      | nil => rfl
      | cons b' bs => exact ih (fun h => hclean (h.trans (List.suffix_cons b _).isInfix)) hlast
    rw [← hrest,List.cons_append]
    by_cases hshort : (bs ++ rest).length ≤ 2
    · have hcons : (b :: (bs ++ rest)).length ≤ 3 := Nat.succ_le_succ hshort
      rw [tailTypes_short hcons,tailTypes_short (Nat.le_succ_of_le hshort)]
    · rcases htail : bs ++ rest with _ | ⟨b₁,_ | ⟨b₂,_ | ⟨b₃,tail⟩⟩⟩ <;> rw [htail] at hshort
      · exact absurd (Nat.zero_le _) hshort
      · exact absurd (Nat.le_succ 1) hshort
      · exact absurd (Nat.le_refl 2) hshort
      · obtain ⟨hthree,hfour⟩ := no_startCode hclean hlast htail
        rw [tailTypes_cons,if_neg hthree,if_neg hfour]

theorem payload_clean (u : NalUnit) : Clean 0 u.payload ∧ u.payload.getLast? ≠ some 0 := by
  refine ⟨fun h => u.noStartCode (h.trans (List.suffix_cons _ _).isInfix),fun h => ?_⟩
  obtain ⟨header,payload,hcode,hzero⟩ := u
  cases payload with
  | nil => cases h
  | cons b payload => exact hzero h

theorem nalTypes_stream (us : List (ℕ × NalUnit)) :
    tailTypes (byteStream us) = us.map fun u => u.2.header &&& naluTypeBitmask := by
  induction us with
  | nil => exact tailTypes_short (by decide)
  | cons u us ih =>
    obtain ⟨zeros,u⟩ := u
    have hunit : u.bytes ++ byteStream us = u.header :: (u.payload ++ byteStream us) := rfl
    rw [byteStream,hunit,tailTypes_startCode,tailTypes_unit (payload_clean u).1 (payload_clean u).2,ih,List.map_cons]

theorem describeH264Nals_eq (data : Bytes) : describeH264Nals data = .ok (describeTypes (tailTypes data)) := by
  rw [describeH264Nals,nalTypesLoop_eq (Nat.le_refl _),List.drop_zero,Outcome.ok_bind]

/-- A description is made of any bytes. That of a stream has the type of each unit, and the packetizer sends the same
units. -/
theorem describes_units : (∀ data, ∃ text, describeH264Nals data = .ok text) ∧
    ∀ us, describeH264Nals (byteStream us) = .ok (describeTypes (us.map fun u => u.2.header &&& naluTypeBitmask)) ∧
      ∀ (p : Packetizer) (mtu : ℕ), 0 < mtu → p.packetize mtu (byteStream us) = p.emitAll mtu (us.map Prod.snd) := by
  refine ⟨fun data => ⟨_,describeH264Nals_eq data⟩,fun us => ⟨?_,fun p mtu hmtu => ?_⟩⟩
  · rw [describeH264Nals_eq,nalTypes_stream]
  · exact packetize_units (Nat.ne_of_gt hmtu) us p

example : describeH264Nals [0,0,0,1,0x67,0x42,0,0,1,0x65,0x88] = .ok "SPS(7), IDR(5)" := by decide +kernel

end H264
end AnyKvm
