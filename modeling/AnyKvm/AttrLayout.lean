import Mathlib.Algebra.Ring.Nat
import Mathlib.Data.List.GetD
import AnyKvm.StunClient

/-! Messages as `stun_header` and `append_attr` lay them out, and the attributes that a walk over such a
message meets. -/
namespace AnyKvm
namespace Turn

open Outcome Bytes TlvWalk

theorem u16FromBeBytes_toBe (v : UInt16) : u16FromBeBytes (v >>> 8).toUInt8 v.toUInt8 = v := by
  have hv := v.toNat_lt
  rw [← UInt16.toNat_inj]
  simp only [u16FromBeBytes,UInt16.toNat_or,UInt16.toNat_shiftLeft,UInt8.toNat_toUInt16,UInt16.toNat_toUInt8,
    UInt16.toNat_shiftRight,UInt16.reduceToNat,Nat.reduceMod,Nat.shiftRight_eq_div_pow]
  rw [Nat.mod_eq_of_lt (b := 2 ^ 16) (by rw [Nat.shiftLeft_eq]; omega),
    ← Nat.shiftLeft_add_eq_or_of_lt (by omega),Nat.shiftLeft_eq]
  omega

theorem u32FromBeBytes_toBe (v : UInt32) :
    u32FromBeBytes (v >>> 24).toUInt8 (v >>> 16).toUInt8 (v >>> 8).toUInt8 v.toUInt8 = v := by
  have hv := v.toNat_lt
  rw [← UInt32.toNat_inj]
  simp only [u32FromBeBytes,UInt32.toNat_or,UInt32.toNat_shiftLeft,UInt8.toNat_toUInt32,UInt32.toNat_toUInt8,
    UInt32.toNat_shiftRight,UInt32.reduceToNat,Nat.reduceMod,Nat.shiftRight_eq_div_pow]
  rw [Nat.mod_eq_of_lt (b := 2 ^ 32) (by rw [Nat.shiftLeft_eq]; omega),
    Nat.mod_eq_of_lt (b := 2 ^ 32) (by rw [Nat.shiftLeft_eq]; omega),
    Nat.mod_eq_of_lt (b := 2 ^ 32) (by rw [Nat.shiftLeft_eq]; omega),Nat.or_assoc,Nat.or_assoc]
  -- the four bytes do not overlap, from the lowest up
  rw [← Nat.shiftLeft_add_eq_or_of_lt (i := 8) (by omega)]
  rw [← Nat.shiftLeft_add_eq_or_of_lt (i := 16) (by simp only [Nat.shiftLeft_eq]; omega)]
  rw [← Nat.shiftLeft_add_eq_or_of_lt (i := 24) (by simp only [Nat.shiftLeft_eq]; omega)]
  simp only [Nat.shiftLeft_eq]
  omega

theorem u32ToBeBytes_ofNat (n : ℕ) : u32ToBeBytes (UInt32.ofNat n) =
    [UInt8.ofNat (n / 2 ^ 24),UInt8.ofNat (n / 2 ^ 16),UInt8.ofNat (n / 2 ^ 8),UInt8.ofNat n] := by
  simp only [u32ToBeBytes,List.cons.injEq,and_true,← UInt8.toNat_inj,UInt32.toNat_toUInt8,
    UInt32.toNat_shiftRight,UInt32.toNat_ofNat',UInt8.toNat_ofNat',UInt32.reduceToNat,Nat.reduceMod,
    Nat.shiftRight_eq_div_pow]
  omega

theorem u64ToBeBytes_ofNat (n : ℕ) : u64ToBeBytes (UInt64.ofNat n) =
    [UInt8.ofNat (n / 2 ^ 56),UInt8.ofNat (n / 2 ^ 48),UInt8.ofNat (n / 2 ^ 40),UInt8.ofNat (n / 2 ^ 32),
      UInt8.ofNat (n / 2 ^ 24),UInt8.ofNat (n / 2 ^ 16),UInt8.ofNat (n / 2 ^ 8),UInt8.ofNat n] := by
  simp only [u64ToBeBytes,List.cons.injEq,and_true,← UInt8.toNat_inj,UInt64.toNat_toUInt8,
    UInt64.toNat_shiftRight,UInt64.toNat_ofNat',UInt8.toNat_ofNat',UInt64.reduceToNat,Nat.reduceMod,
    Nat.shiftRight_eq_div_pow]
  omega

theorem exists_genTxnId {txn : Bytes} (htxn : txn.length = 12) : ∃ nanos, genTxnId nanos = txn := by
  match txn, htxn with
  | [a₀,a₁,a₂,a₃,a₄,a₅,a₆,a₇,b₀,b₁,b₂,b₃],_ =>
    have hlt : ∀ b : UInt8, b.toNat < 256 := fun b => b.toNat_lt
    refine ⟨((b₀.toNat * 256 + b₁.toNat) * 256 + b₂.toNat) * 256 * 2 ^ 64 + b₃.toNat * 2 ^ 64 +
      (((((((a₀.toNat * 256 + a₁.toNat) * 256 + a₂.toNat) * 256 + a₃.toNat) * 256 + a₄.toNat) * 256 +
        a₅.toNat) * 256 + a₆.toNat) * 256 + a₇.toNat),?_⟩
    rw [genTxnId,u64ToBeBytes_ofNat,u32ToBeBytes_ofNat,Nat.shiftRight_eq_div_pow]
    have h₀ := hlt a₀
    have h₁ := hlt a₁
    have h₂ := hlt a₂
    have h₃ := hlt a₃
    have h₄ := hlt a₄
    have h₅ := hlt a₅
    have h₆ := hlt a₆
    have h₇ := hlt a₇
    have h₈ := hlt b₀
    have h₉ := hlt b₁
    have h₁₀ := hlt b₂
    have h₁₁ := hlt b₃
    simp only [List.cons_append,List.nil_append,List.cons.injEq,and_true,← UInt8.toNat_inj,UInt8.toNat_ofNat']
    omega

def encoded (field : UInt16 × Bytes) : Bytes := appendAttr [] field.1 field.2

def encodedAll (fields : List (UInt16 × Bytes)) : Bytes := fields.flatMap encoded

/-- Where attributes stand that are written from a position on. -/
def layout : ℕ → List (UInt16 × Bytes) → List Attr
  | _,[] => []
  | pos,(typ,val) :: fields => ⟨typ,pos + 4,val.length⟩ :: layout (pos + (4 + align4 val.length)) fields

variable {fields fields' : List (UInt16 × Bytes)} {val : Bytes}

theorem appendAttr_eq (buf : Bytes) (typ : UInt16) (val : Bytes) :
    appendAttr buf typ val = buf ++ encoded (typ,val) := by
  simp [appendAttr,encoded]

@[simp] theorem encodedAll_nil : encodedAll [] = [] := rfl

theorem encodedAll_cons (field : UInt16 × Bytes) :
    encodedAll (field :: fields) = encoded field ++ encodedAll fields := rfl

theorem encodedAll_append : encodedAll (fields ++ fields') = encodedAll fields ++ encodedAll fields' :=
  List.flatMap_append

theorem appendAttr_encodedAll (fields : List (UInt16 × Bytes)) (typ : UInt16) (val : Bytes) :
    appendAttr (encodedAll fields) typ val = encodedAll (fields ++ [(typ,val)]) := by
  rw [appendAttr_eq,encodedAll_append,encodedAll_cons,encodedAll_nil,List.append_nil]

theorem length_encoded (typ : UInt16) (val : Bytes) :
    (encoded (typ,val)).length = 4 + align4 val.length := by
  simp only [encoded,appendAttr,u16ToBeBytes,List.length_append,List.length_cons,List.length_nil,
    List.length_replicate,align4]
  omega

theorem layout_append (pos : ℕ) (fields fields' : List (UInt16 × Bytes)) :
    layout pos (fields ++ fields') =
      layout pos fields ++ layout (pos + (encodedAll fields).length) fields' := by
  induction fields generalizing pos with
  | nil => rfl
  | cons field fields ih =>
    obtain ⟨typ,val⟩ := field
    rw [List.cons_append,layout,ih,layout,encodedAll_cons,List.length_append,length_encoded,List.cons_append,
      Nat.add_assoc]

theorem attrAt_encoded (typ : UInt16) (pre post : Bytes) (hval : val.length < 65536) :
    attrAt (pre ++ (encoded (typ,val) ++ post)) pre.length = ⟨typ,pre.length + 4,val.length⟩ := by
  have hread : ∀ i, (pre ++ (encoded (typ,val) ++ post)).getD (pre.length + i) 0 =
      (encoded (typ,val) ++ post).getD i 0 := by
    intro i
    rw [List.getD_append_right _ _ _ _ (Nat.le_add_right _ _),Nat.add_sub_cancel_left]
  have hread₀ := hread 0
  rw [Nat.add_zero] at hread₀
  rw [attrAt,hread₀,hread 1,hread 2,hread 3]
  simp only [encoded,appendAttr,u16ToBeBytes,List.nil_append,List.cons_append,List.getD_cons_zero,
    List.getD_cons_succ,u16FromBeBytes_toBe,UInt16.toNat_ofNat']
  rw [Nat.mod_eq_of_lt hval]

theorem value_encoded (typ : UInt16) (val pre post : Bytes) :
    value (pre ++ (encoded (typ,val) ++ post)) ⟨typ,pre.length + 4,val.length⟩ = val := by
  rw [value,List.drop_append,List.drop_eq_nil_of_le (Nat.le_add_right _ _),Nat.add_sub_cancel_left,List.nil_append]
  simp [encoded,appendAttr,u16ToBeBytes]

/-- A walk over attributes that fill a message to its end meets them all, where they have been written. -/
theorem attrs_encodedAll (pre : Bytes) (fields : List (UInt16 × Bytes))
    (hsmall : ∀ field ∈ fields, field.2.length < 65536) (fuel : ℕ) (hfuel : fields.length ≤ fuel) :
    attrs (pre ++ encodedAll fields) (pre ++ encodedAll fields).length fuel pre.length =
      layout pre.length fields := by
  induction fields generalizing pre fuel with
  | nil =>
    cases fuel with
    | zero => rfl
    | succ fuel =>
      rw [attrs,encodedAll_nil,List.append_nil]
      exact if_neg fun h => by omega
  | cons field fields ih =>
    obtain ⟨typ,val⟩ := field
    cases fuel with
    | zero => cases hfuel
    | succ fuel =>
      have hhere := attrAt_encoded typ pre (encodedAll fields) (hsmall (typ,val) List.mem_cons_self)
      have hlength := length_encoded typ val
      have halign : val.length ≤ align4 val.length := by
        unfold align4
        omega
      rw [attrs,encodedAll_cons,hhere]
      simp only [List.length_append,hlength]
      rw [if_pos (by omega),layout]
      refine congrArg _ ?_
      have hrest := ih (pre ++ encoded (typ,val))
        (fun field hfield => hsmall field (List.mem_cons_of_mem _ hfield)) fuel (by simpa using hfuel)
      simpa only [List.append_assoc,List.length_append,hlength,Nat.add_assoc] using hrest

theorem map_value_layout (pre : Bytes) (fields : List (UInt16 × Bytes)) :
    (layout pre.length fields).map (fun attr => (attr.typ,value (pre ++ encodedAll fields) attr)) =
      fields := by
  induction fields generalizing pre with
  | nil => rfl
  | cons field fields ih =>
    obtain ⟨typ,val⟩ := field
    have hrest := ih (pre ++ encoded (typ,val))
    rw [List.length_append,length_encoded,List.append_assoc] at hrest
    rw [layout,List.map_cons,encodedAll_cons,value_encoded,hrest]

def headerLength (msg : Bytes) : ℕ := (u16FromBeBytes (msg.getD 2 0) (msg.getD 3 0)).toNat

theorem length_stunHeader (msgType msgLen : UInt16) {txn : Bytes} (htxn : txn.length = 12) :
    (stunHeader msgType msgLen txn).length = 20 := by
  simp [stunHeader,u16ToBeBytes,u32ToBeBytes,htxn]

theorem length_genTxnId (nanos : ℕ) : (genTxnId nanos).length = 12 := rfl

theorem msgType_stunHeader (msgType msgLen : UInt16) (txn attrs : Bytes) :
    u16FromBeBytes ((stunHeader msgType msgLen txn ++ attrs).getD 0 0)
      ((stunHeader msgType msgLen txn ++ attrs).getD 1 0) = msgType :=
  u16FromBeBytes_toBe msgType

theorem cookie_stunHeader (msgType msgLen : UInt16) (txn attrs : Bytes) :
    u32FromBeBytes ((stunHeader msgType msgLen txn ++ attrs).getD 4 0)
      ((stunHeader msgType msgLen txn ++ attrs).getD 5 0) ((stunHeader msgType msgLen txn ++ attrs).getD 6 0)
      ((stunHeader msgType msgLen txn ++ attrs).getD 7 0) = stunMagic :=
  u32FromBeBytes_toBe stunMagic

theorem msgLen_stunHeader (msgType msgLen : UInt16) (txn attrs : Bytes) :
    u16FromBeBytes ((stunHeader msgType msgLen txn ++ attrs).getD 2 0)
      ((stunHeader msgType msgLen txn ++ attrs).getD 3 0) = msgLen :=
  u16FromBeBytes_toBe msgLen

theorem isDataIndication_request {txn : Bytes} (htxn : txn.length = 12) (attrs : Bytes) :
    isDataIndication (request 0x0017 txn attrs) = true := by
  rw [isDataIndication,request,msgType_stunHeader,cookie_stunHeader,List.length_append,length_stunHeader _ _ htxn]
  simp

theorem length_lt_of_mem {field : UInt16 × Bytes} (h : field ∈ fields) :
    field.2.length < (encodedAll fields).length := by
  induction fields with
  | nil => cases h
  | cons first fields ih =>
    obtain ⟨typ,val⟩ := first
    have hlength := length_encoded typ val
    unfold align4 at hlength
    rw [encodedAll_cons,List.length_append]
    rcases List.mem_cons.mp h with rfl | h
    · dsimp only
      omega
    · have := ih h
      omega

theorem length_le_encodedAll (fields : List (UInt16 × Bytes)) : fields.length ≤ (encodedAll fields).length := by
  induction fields with
  | nil => exact Nat.le_refl 0
  | cons field fields ih =>
    obtain ⟨typ,val⟩ := field
    have hlength := length_encoded typ val
    rw [encodedAll_cons,List.length_append,List.length_cons]
    omega

theorem headerLength_request (msgType : UInt16) {txn attrs : Bytes} (htxn : txn.length = 12)
    (hsmall : attrs.length < 65536) :
    headerLength (request msgType txn attrs) + 20 = (request msgType txn attrs).length := by
  rw [headerLength,request,msgLen_stunHeader,UInt16.toNat_ofNat_of_lt' hsmall,List.length_append,
    length_stunHeader _ _ htxn,Nat.add_comm]

theorem messageAttrs_request (msgType : UInt16) {txn : Bytes} (htxn : txn.length = 12)
    (hsmall : (encodedAll fields).length < 65536) :
    messageAttrs (request msgType txn (encodedAll fields)) = layout 20 fields := by
  have hheader := length_stunHeader msgType (UInt16.ofNat (encodedAll fields).length) htxn
  have hlen : (UInt16.ofNat (encodedAll fields).length).toNat = (encodedAll fields).length :=
    UInt16.toNat_ofNat_of_lt hsmall
  have hfuel : fields.length ≤ (request msgType txn (encodedAll fields)).length := by
    have := length_le_encodedAll fields
    rw [request,List.length_append]
    omega
  have hwalk := attrs_encodedAll (stunHeader msgType (UInt16.ofNat (encodedAll fields).length) txn) fields
    (fun field hfield => Nat.lt_trans (length_lt_of_mem hfield) hsmall) _ hfuel
  rw [messageAttrs,request,msgLen_stunHeader,hlen,List.length_append,hheader,Nat.min_self]
  rwa [request,List.length_append,hheader] at hwalk

end Turn
end AnyKvm
