import AnyKvm.StunMessage

/-! When the STUN parser panics.
The reads of each attribute are decided from the bytes of the message alone, and the attribute loop
from the list of attributes. -/
namespace AnyKvm
namespace Stun

open Outcome Bytes

/-- An attribute with the bytes of the message from its header on. -/
structure Tlv where
  typ : UInt16
  len : ℕ
  buf : Bytes
  deriving DecidableEq, Repr

def header (buf : Bytes) : Tlv where
  typ := u16FromBeBytes (buf.getD 0 0) (buf.getD 1 0)
  len := (u16FromBeBytes (buf.getD 2 0) (buf.getD 3 0)).toNat
  buf := buf

/-- The attributes of a message up to one that is longer than the message. -/
def tlvs : ℕ → Bytes → List Tlv
  | 0,_ => []
  | fuel + 1,buf =>
    if buf = [] ∨ buf.length - 4 < (header buf).len then []
    else header buf :: tlvs fuel (buf.drop (4 + padLen (header buf).len))

/-- A text of at most 128 bytes in UTF-8. -/
def Readable (bytes : Bytes) (len : ℕ) : Prop := len ≤ 128 ∧ (text? (bytes.take len)).isSome

/-- The error class of ERROR-CODE is one of 3 to 6, below two zero bytes. -/
def ErrorClass (buf : Bytes) : Prop :=
  buf.getD 4 0 = 0 ∧ buf.getD 5 0 = 0 ∧ buf.getD 6 0 &&& 0xF8 = 0 ∧
    ¬ ((buf.getD 6 0).toUInt16 * 100 < 300 ∨ (buf.getD 6 0).toUInt16 * 100 > 699)

namespace Tlv

/-- The message holds what the parser reads of the attribute, whatever its length says. -/
def Fits (t : Target) (a : Tlv) : Prop :=
  match AttrType.ofTyp a.typ with
  | .errorCode => 8 ≤ a.buf.length ∧ (t.overflowChecks = true → ErrorClass a.buf → 4 ≤ a.len)
  | .xorMappedAddress =>
    8 ≤ a.buf.length ∧ (a.buf.getD 5 0 = 1 → 12 ≤ a.buf.length) ∧
      (a.buf.getD 5 0 = 2 → 24 ≤ a.buf.length)
  | .fingerprint => 8 ≤ a.buf.length
  | _ => True

/-- The parser goes on after the attribute. -/
def WellFormed (a : Tlv) : Prop :=
  match AttrType.ofTyp a.typ with
  | .username | .realm | .nonce | .software => Readable (a.buf.drop 4) a.len
  | .messageIntegrity => a.len = 20
  | .errorCode => ErrorClass a.buf ∧ 4 ≤ a.len ∧ Readable (a.buf.drop 8) (a.len - 4)
  | .xorMappedAddress => a.buf.getD 5 0 = 1 ∨ a.buf.getD 5 0 = 2
  | .priority => a.len = 4
  | .useCandidate => a.len = 0
  | .iceControlled | .iceControlling => a.len = 8
  | _ => True

end Tlv

/-- Each attribute that is looked at fits, up to the first that is not well formed. -/
def Survives (t : Target) : Bool → List Tlv → Prop
  | _,[] => True
  | ignoreRest,a :: rest =>
    if considered ignoreRest a.typ then
      a.Fits t ∧ (a.WellFormed →
        Survives t (ignoreRest || AttrType.ofTyp a.typ == .messageIntegrity) rest)
    else Survives t ignoreRest rest

theorem decodeStr_decides (typ : UInt16) {buf : Bytes} {len : ℕ} (h : len ≤ buf.length) :
    (decodeStr typ buf len).Decides True (Readable buf len) := by
  unfold decodeStr Readable
  split
  · rename_i hlen
    exact (decides_err _).congr Iff.rfl fun _ => by simp [Nat.not_le.mpr hlen]
  · rename_i hlen
    rw [slice_of_le (Nat.zero_le _) h,ok_bind,List.drop_zero,Nat.sub_zero]
    cases htext : text? (buf.take len) with
    | none => exact (decides_err _).congr Iff.rfl fun _ => by simp
    | some v => exact (decides_ok _).congr Iff.rfl fun _ => by simp [Nat.not_lt.mp hlen]

theorem xorBytes_decides {ε : Type} (mask buf : Bytes) :
    (xorBytes mask buf : Outcome ε Bytes).Decides (mask.length ≤ buf.length) True := by
  induction mask generalizing buf with
  | nil => exact (decides_ok _).congr (by simp) fun _ => Iff.rfl
  | cons m mask ih =>
    cases buf with
    | nil => exact decides_panicked.congr (by simp) fun h => h.elim
    | cons b buf =>
      have hmap := (ih buf).map fun bytes => (b ^^^ m) :: bytes
      exact hmap.congr (by simp) fun _ => Iff.rfl

theorem decodeXor_decides (buf : Bytes) (transId : TransId) (hdvd : 4 ∣ buf.length) :
    (decodeXor buf transId).Decides
      (4 ≤ buf.length ∧ (buf.getD 1 0 = 1 → 8 ≤ buf.length) ∧ (buf.getD 1 0 = 2 → 20 ≤ buf.length))
      (buf.getD 1 0 = 1 ∨ buf.getD 1 0 = 2) := by
  have hmask : (magic ++ transId.bytes).length = 16 := by
    rw [List.length_append,transId.length_eq]
    rfl
  unfold decodeXor
  by_cases h : 4 ≤ buf.length
  swap
  · rw [index_eq_panicked.mpr (by omega : buf.length ≤ 2),panicked_bind]
    exact decides_panicked.congr (by simp [h]) fun h => h.elim
  rw [index_of_lt (by omega : 2 < buf.length),index_of_lt (by omega : 3 < buf.length),
    index_of_lt (by omega : 1 < buf.length),sliceFrom_of_le h]
  simp only [ok_bind,h,true_and]
  generalize buf.getD 1 0 = family
  by_cases h₁ : family = 1
  · have hne : ¬ (1 : UInt8) = 2 := by decide
    rw [if_pos h₁]
    refine ((xorBytes_decides magic (buf.drop 4)).map _).congr ?_ fun _ => by simp [h₁]
    simp only [h₁,hne,List.length_drop,magic,List.length_cons,List.length_nil,true_imp_iff,
      false_imp_iff,and_true]
    omega
  · rw [if_neg h₁]
    by_cases h₂ : family = 2
    · have hne : ¬ (2 : UInt8) = 1 := by decide
      rw [if_pos h₂]
      refine ((xorBytes_decides (magic ++ transId.bytes) (buf.drop 4)).map _).congr ?_
        fun _ => by simp [h₂]
      simp only [h₂,hne,List.length_drop,hmask,true_imp_iff,false_imp_iff,true_and]
      omega
    · rw [if_neg h₂]
      exact (decides_err _).congr (by simp [h₁,h₂]) fun _ => by simp [h₁,h₂]

theorem Target.sub_of_le {ε : Type} (t : Target) {a b : ℕ} (h : b ≤ a) :
    (t.sub a b : Outcome ε ℕ) = .ok (a - b) :=
  if_pos h

/-- The reason phrase of ERROR-CODE: without overflow checks a length below four wraps to one that
is rejected. -/
theorem reason_decides (t : Target) (typ : UInt16) {buf : Bytes} {len : ℕ}
    (h : 4 + len ≤ buf.length) (h₈ : 8 ≤ buf.length) :
    (t.sub len 4 >>= fun n => decodeStr typ (buf.drop 8) n).Decides
      (t.overflowChecks = true → 4 ≤ len) (4 ≤ len ∧ Readable (buf.drop 8) (len - 4)) := by
  by_cases hlen : 4 ≤ len
  · rw [t.sub_of_le hlen,ok_bind]
    refine (decodeStr_decides typ ?_).congr (by simp [hlen]) fun _ => by simp [hlen]
    rw [List.length_drop]
    omega
  · rw [Target.sub,if_neg hlen]
    cases hchecks : t.overflowChecks with
    | true => exact decides_panicked.congr (by simp [hlen]) fun h => h.elim
    | false =>
      have hbig : t.usizeValues + len - 4 > 128 := by
        have := t.usizeValues_ge
        omega
      rw [if_neg (Bool.false_ne_true),ok_bind,decodeStr,if_pos hbig]
      exact (decides_err _).congr (by simp) fun _ => by simp [hlen]

theorem getD_drop (buf : Bytes) (n i : ℕ) : (buf.drop n).getD i 0 = buf.getD (n + i) 0 := by
  rw [List.getD_eq_getElem?_getD,List.getElem?_drop,← List.getD_eq_getElem?_getD]

theorem length_eq_four {buf : Bytes} (hbuf : 4 ≤ buf.length) (hdvd : 4 ∣ buf.length)
    (h : ¬ 8 ≤ buf.length) : buf.length = 4 := by
  omega

theorem decodeErrorClass_decides {buf : Bytes} (hbuf : 4 ≤ buf.length) (hdvd : 4 ∣ buf.length) :
    (decodeErrorClass buf).Decides (8 ≤ buf.length) (ErrorClass buf) := by
  unfold decodeErrorClass ErrorClass
  by_cases h₈ : 8 ≤ buf.length
  · rw [index_of_lt (by omega : 4 < buf.length),index_of_lt (by omega : 5 < buf.length),
      index_of_lt (by omega : 6 < buf.length)]
    simp only [ok_bind]
    generalize buf.getD 4 0 = b₄
    generalize buf.getD 5 0 = b₅
    generalize buf.getD 6 0 = b₆
    by_cases h₄ : b₄ = 0
    · by_cases h₅ : b₅ = 0
      · by_cases h₆ : b₆ &&& 0xF8 = 0
        · by_cases hclass : b₆.toUInt16 * 100 < 300 ∨ b₆.toUInt16 * 100 > 699
          · simp only [h₄,h₅,h₆,hclass,ne_eq,not_true,if_false,if_true]
            exact (decides_err _).congr (by simp [h₈]) fun _ => by simp
          · simp only [h₄,h₅,h₆,hclass,ne_eq,not_true,if_false]
            exact (decides_ok _).congr (by simp [h₈]) fun _ => by simp
        · rw [if_neg (not_not.mpr h₄),if_neg (not_not.mpr h₅),if_pos h₆]
          exact (decides_err _).congr (by simp [h₈]) fun _ => by simp [h₆]
      · rw [if_neg (not_not.mpr h₄),if_pos h₅]
        exact (decides_err _).congr (by simp [h₈]) fun _ => by simp [h₅]
    · rw [if_pos h₄]
      exact (decides_err _).congr (by simp [h₈]) fun _ => by simp [h₄]
  · have h₄ := length_eq_four hbuf hdvd h₈
    rw [index_eq_panicked.mpr (Nat.le_of_eq h₄),panicked_bind]
    exact decides_panicked.congr (by simp [h₈]) fun h => h.elim

theorem decodeErrorCode_decides (t : Target) (typ : UInt16) {buf : Bytes} {len : ℕ}
    (hlen : 4 + len ≤ buf.length) (hdvd : 4 ∣ buf.length) :
    (decodeErrorCode t typ buf len).Decides
      (8 ≤ buf.length ∧ (ErrorClass buf → t.overflowChecks = true → 4 ≤ len))
      (ErrorClass buf ∧ 4 ≤ len ∧ Readable (buf.drop 8) (len - 4)) := by
  have hclass := decodeErrorClass_decides (Nat.le_of_add_right_le hlen) hdvd
  refine hclass.bind fun errorClass hok => ?_
  have h₈ : 8 ≤ buf.length := not_not.mp fun h => by simp [hclass.panicked.mpr h] at hok
  have hreason := (reason_decides t typ hlen h₈).map fun reason =>
    (errorClass + ((buf.getD 7 0) % 100).toUInt16,reason)
  rw [bind_bind] at hreason
  rw [index_of_lt (by omega : 7 < buf.length),sliceFrom_of_le h₈]
  exact hreason

section Attribute
variable (t : Target) (transId : TransId) {typ : UInt16} {len : ℕ} (off : ℕ) {buf : Bytes}
  (s : ParseState)

theorem decodeStr_map_decides (h : 4 + len ≤ buf.length) (g : String → ParseState) :
    (sliceFrom buf 4 >>= fun rest => decodeStr typ rest len >>= fun v => .ok (g v)).Decides True
      (Readable (buf.drop 4) len) := by
  rw [sliceFrom_of_le (by omega),ok_bind]
  refine (decodeStr_decides typ ?_).map g
  rw [List.length_drop]
  omega

theorem u64_decides (h : 4 + len ≤ buf.length) (e : StunError) (g : Bytes → ParseState) :
    (if len ≠ 8 then .err e else slice buf 4 12 >>= fun v => .ok (g v) : Outcome StunError _).Decides
      True (len = 8) := by
  by_cases hlen : len = 8
  · rw [if_neg (not_not.mpr hlen),slice_of_le (by omega) (by omega),ok_bind]
    exact (decides_ok _).congr Iff.rfl fun _ => by simp [hlen]
  · rw [if_pos hlen]
    exact (decides_err e).congr Iff.rfl fun _ => by simp [hlen]

theorem onAttr_decides (hlen : 4 + len ≤ buf.length) (hdvd : 4 ∣ buf.length) :
    (onAttr t transId typ len off buf s).Decides ((Tlv.mk typ len buf).Fits t)
      (Tlv.mk typ len buf).WellFormed := by
  have h₄ : 4 ≤ buf.length := by omega
  unfold onAttr Tlv.Fits Tlv.WellFormed
  simp only
  cases AttrType.ofTyp typ with
  | mappedAddress => exact decides_ok _
  | unknownAttributes => exact decides_ok _
  | alternateServer => exact decides_ok _
  | other => exact decides_ok _
  | username => exact decodeStr_map_decides hlen _
  | realm => exact decodeStr_map_decides hlen _
  | nonce => exact decodeStr_map_decides hlen _
  | software => exact decodeStr_map_decides hlen _
  | messageIntegrity =>
    by_cases h : len = 20
    · have h₂₄ : 24 ≤ buf.length := by omega
      simp only [h,ne_eq,not_true,if_false,slice_of_le (by omega : 4 ≤ 24) h₂₄,ok_bind]
      exact decides_ok _
    · simp only [h,ne_eq,not_false_iff,if_true]
      exact decides_err _
  | errorCode =>
    refine ((decodeErrorCode_decides t typ hlen hdvd).map _).congr ?_ fun _ => Iff.rfl
    exact and_congr_right fun _ => forall_comm
  | xorMappedAddress =>
    have hxor := decodeXor_decides (buf.drop 4) transId (by rw [List.length_drop]; omega)
    rw [sliceFrom_of_le h₄,ok_bind]
    refine (hxor.map _).congr ?_ fun _ => by rw [getD_drop]
    rw [getD_drop,List.length_drop]
    exact and_congr (by omega) (and_congr (imp_congr_right fun _ => by omega)
      (imp_congr_right fun _ => by omega))
  | priority =>
    by_cases h : len = 4
    · simp only [h,ne_eq,not_true,if_false]
      rw [index_of_lt (by omega),index_of_lt (by omega),index_of_lt (by omega),index_of_lt (by omega)]
      exact decides_ok _
    · simp only [h,ne_eq,not_false_iff,if_true]
      exact decides_err _
  | useCandidate =>
    by_cases h : len = 0
    · simp only [h,ne_eq,not_true,if_false]
      exact decides_ok _
    · simp only [h,ne_eq,not_false_iff,if_true]
      exact decides_err _
  | fingerprint =>
    by_cases h₈ : 8 ≤ buf.length
    · rw [index_of_lt (by omega),index_of_lt (by omega),index_of_lt (by omega),index_of_lt (by omega)]
      exact (decides_ok _).congr (by simp [h₈]) fun _ => Iff.rfl
    · rw [index_eq_panicked.mpr (Nat.le_of_eq (length_eq_four h₄ hdvd h₈)),panicked_bind]
      exact decides_panicked.congr (by simp [h₈]) fun h => h.elim
  | iceControlled => exact u64_decides hlen _ _
  | iceControlling => exact u64_decides hlen _ _
  | networkCost =>
    by_cases h : len = 4
    · simp only [h,ne_eq,not_true,if_false]
      rw [index_of_lt (by omega),index_of_lt (by omega),index_of_lt (by omega),index_of_lt (by omega)]
      exact decides_ok _
    · simp only [h,ne_eq,not_false_iff,if_true]
      exact decides_ok _

theorem onAttr_off : (onAttr t transId typ len off buf s).Returns fun s' =>
    s'.ignoreRest = (s.ignoreRest || AttrType.ofTyp typ == .messageIntegrity) ∧
    (s'.msgIntegrityOff = off ∨ s'.msgIntegrityOff = s.msgIntegrityOff) := by
  unfold onAttr
  simp only
  have same : ∀ {kind : AttrType}, kind ≠ .messageIntegrity → ∀ a : Attributes,
      ({ s with attributes := a } : ParseState).ignoreRest =
        (s.ignoreRest || kind == .messageIntegrity) ∧
      (({ s with attributes := a } : ParseState).msgIntegrityOff = off ∨
        ({ s with attributes := a } : ParseState).msgIntegrityOff = s.msgIntegrityOff) :=
    fun hkind _ => ⟨by simp [hkind],.inr rfl⟩
  cases AttrType.ofTyp typ with
  | messageIntegrity =>
    exact returns_ite (fun _ => returns_err _) fun _ =>
      returns_bind fun _ _ => returns_ok ⟨by simp,.inl rfl⟩
  | mappedAddress => exact returns_ok (same (by decide) s.attributes)
  | unknownAttributes => exact returns_ok (same (by decide) s.attributes)
  | alternateServer => exact returns_ok (same (by decide) s.attributes)
  | other => exact returns_ok (same (by decide) s.attributes)
  | username =>
    exact returns_bind fun _ _ => returns_bind fun _ _ => returns_ok (same (by decide) _)
  | realm =>
    exact returns_bind fun _ _ => returns_bind fun _ _ => returns_ok (same (by decide) _)
  | nonce =>
    exact returns_bind fun _ _ => returns_bind fun _ _ => returns_ok (same (by decide) _)
  | software =>
    exact returns_bind fun _ _ => returns_bind fun _ _ => returns_ok (same (by decide) _)
  | errorCode => exact returns_bind fun _ _ => returns_ok (same (by decide) _)
  | xorMappedAddress =>
    exact returns_bind fun _ _ => returns_bind fun _ _ => returns_ok (same (by decide) _)
  | priority =>
    exact returns_ite (fun _ => returns_err _) fun _ => returns_bind fun _ _ => returns_bind fun _ _ =>
      returns_bind fun _ _ => returns_bind fun _ _ => returns_ok (same (by decide) _)
  | useCandidate =>
    exact returns_ite (fun _ => returns_err _) fun _ => returns_ok (same (by decide) _)
  | fingerprint =>
    exact returns_bind fun _ _ => returns_bind fun _ _ => returns_bind fun _ _ =>
      returns_bind fun _ _ => returns_ok (same (by decide) _)
  | iceControlled =>
    exact returns_ite (fun _ => returns_err _) fun _ => returns_bind fun _ _ =>
      returns_ok (same (by decide) _)
  | iceControlling =>
    exact returns_ite (fun _ => returns_err _) fun _ => returns_bind fun _ _ =>
      returns_ok (same (by decide) _)
  | networkCost =>
    exact returns_ite (fun _ => returns_ok (same (by decide) s.attributes)) fun _ =>
      returns_bind fun _ _ => returns_bind fun _ _ => returns_bind fun _ _ => returns_bind fun _ _ =>
        returns_ok (same (by decide) _)

end Attribute

theorem padLen_dvd (len : ℕ) : 4 ∣ padLen len := by
  unfold padLen
  omega

theorem padLen_le {len n : ℕ} (h : len ≤ n) (hdvd : 4 ∣ n) : padLen len ≤ n := by
  unfold padLen
  omega

section Loop
variable (t : Target) (transId : TransId)

theorem parseAttrs_succ (fuel off : ℕ) {buf : Bytes} (s : ParseState) (hne : buf ≠ [])
    (hdvd : 4 ∣ buf.length) :
    parseAttrs t transId (fuel + 1) off buf s =
      if buf.length - 4 < (header buf).len then
        .err (.parse s!"Bad STUN attribute length: {(header buf).len} > {buf.length - 4}")
      else
        (if considered s.ignoreRest (header buf).typ then
          onAttr t transId (header buf).typ (header buf).len off buf s else .ok s) >>= fun s =>
        parseAttrs t transId fuel (off + (4 + padLen (header buf).len))
          (buf.drop (4 + padLen (header buf).len)) s := by
  have hpos := List.length_pos_iff.mpr hne
  have h₄ : 4 ≤ buf.length := Nat.le_of_dvd hpos hdvd
  rw [parseAttrs,if_neg hne,index_of_lt (by omega : 0 < buf.length),
    index_of_lt (by omega : 1 < buf.length),index_of_lt (by omega : 2 < buf.length),
    index_of_lt (by omega : 3 < buf.length),t.sub_of_le h₄]
  simp only [ok_bind]
  change (if (header buf).len > buf.length - 4 then _ else _) = _
  by_cases h : buf.length - 4 < (header buf).len
  · rw [if_pos h,if_pos h]
    rfl
  · have hpad := padLen_le (Nat.not_lt.mp h) (by omega : 4 ∣ buf.length - 4)
    rw [if_neg h,if_neg h]
    have hrest : (sliceFrom buf (4 + padLen (header buf).len) : Outcome StunError Bytes) = .ok _ :=
      sliceFrom_of_le (by omega)
    change (if considered s.ignoreRest (header buf).typ = true then
      onAttr t transId (header buf).typ (header buf).len off buf s >>= fun s =>
        sliceFrom buf (4 + padLen (header buf).len) >>= _
      else sliceFrom buf (4 + padLen (header buf).len) >>= _) = _
    rw [hrest]
    split <;> rfl

/-- The loop panics exactly if one of the attributes that it looks at does not fit. -/
theorem parseAttrs_eq_panicked (fuel off : ℕ) (buf : Bytes) (s : ParseState) (hdvd : 4 ∣ buf.length)
    (hfuel : buf.length < 4 * fuel) :
    parseAttrs t transId fuel off buf s = .panicked ↔
      ¬ Survives t s.ignoreRest (tlvs fuel buf) := by
  induction fuel generalizing off buf s with
  | zero => omega
  | succ fuel ih =>
    by_cases hne : buf = []
    · simp [parseAttrs,tlvs,hne,Survives]
    · rw [parseAttrs_succ t transId fuel off s hne hdvd,tlvs]
      by_cases h : buf.length - 4 < (header buf).len
      · rw [if_pos h,if_pos (.inr h)]
        simp [Survives]
      · have hpos := List.length_pos_iff.mpr hne
        have h₄ : 4 ≤ buf.length := Nat.le_of_dvd hpos hdvd
        have hdvd' : 4 ∣ buf.length - 4 := by omega
        have hpad := padLen_le (Nat.not_lt.mp h) hdvd'
        have hpad' := padLen_dvd (header buf).len
        have hih := fun off s => ih off (buf.drop (4 + padLen (header buf).len)) s
          (by rw [List.length_drop]; omega) (by rw [List.length_drop]; omega)
        rw [if_neg h,if_neg (not_or.mpr ⟨hne,h⟩),Survives]
        by_cases hc : considered s.ignoreRest (header buf).typ = true
        · rw [if_pos hc,if_pos hc]
          have hdecides : (onAttr t transId (header buf).typ (header buf).len off buf s).Decides
              ((header buf).Fits t) (header buf).WellFormed :=
            onAttr_decides t transId off s (by omega) hdvd
          rw [bind_eq_panicked]
          constructor
          · rintro (hp | ⟨s',hs',hp⟩) ⟨hfits,hrest⟩
            · exact hdecides.panicked.mp hp hfits
            · have hwf := (hdecides.ok hfits).mp ⟨s',hs'⟩
              refine (hih _ s').mp hp ?_
              rw [(onAttr_off t transId off s s' hs').1]
              exact hrest hwf
          · intro hnot
            by_cases hfits : (header buf).Fits t
            · by_cases hwf : (header buf).WellFormed
              · obtain ⟨s',hs'⟩ := (hdecides.ok hfits).mpr hwf
                refine .inr ⟨s',hs',(hih _ s').mpr fun hrest => hnot ⟨hfits,fun _ => ?_⟩⟩
                rwa [(onAttr_off t transId off s s' hs').1] at hrest
              · exact absurd ⟨hfits,fun h => absurd h hwf⟩ hnot
            · exact .inl (hdecides.panicked.mpr hfits)
        · rw [if_neg hc,if_neg hc,ok_bind]
          exact hih _ s

theorem parseAttrs_off (fuel off : ℕ) (buf : Bytes) (s : ParseState) (hdvd : 4 ∣ buf.length) :
    (parseAttrs t transId fuel off buf s).Returns fun s' =>
      s'.msgIntegrityOff ≤ max s.msgIntegrityOff (off + buf.length) := by
  induction fuel generalizing off buf s with
  | zero =>
    intro s' h
    cases h
  | succ fuel ih =>
    by_cases hne : buf = []
    · rw [parseAttrs,if_pos hne]
      exact returns_ok (Nat.le_max_left _ _)
    · rw [parseAttrs_succ t transId fuel off s hne hdvd]
      refine returns_ite (fun _ => returns_err _) fun hlen => returns_bind fun s' hs' => ?_
      have hpos := List.length_pos_iff.mpr hne
      have h₄ : 4 ≤ buf.length := Nat.le_of_dvd hpos hdvd
      have hpad := padLen_le (Nat.not_lt.mp hlen) (by omega : 4 ∣ buf.length - 4)
      have hpad' := padLen_dvd (header buf).len
      have hoff : s'.msgIntegrityOff = off ∨ s'.msgIntegrityOff = s.msgIntegrityOff := by
        split at hs'
        · exact (onAttr_off t transId off s s' hs').2
        · cases hs'
          exact .inr rfl
      intro s'' hs''
      have hrest := ih _ _ s' (by rw [List.length_drop]; omega) s'' hs''
      rw [List.length_drop] at hrest
      omega

end Loop

/-- The header checks of `Message.parse`, for a message of at least 20 bytes. -/
def HeaderOk (buf : Bytes) : Prop :=
  u16FromBeBytes (buf.getD 2 0) (buf.getD 3 0) &&& 3 = 0 ∧
    (u16FromBeBytes (buf.getD 2 0) (buf.getD 3 0)).toNat = buf.length - 20 ∧
    (buf.drop 4).take 4 = magic

def messageTlvs (buf : Bytes) : List Tlv := tlvs ((buf.drop 20).length + 1) (buf.drop 20)

theorem Message.complete_ne_panicked (m : Message) : m.complete ≠ .panicked := by
  unfold Message.complete
  repeat' split
  all_goals simp

theorem dvd_of_and_three {len : UInt16} (h : len &&& 3 = 0) : 4 ∣ len.toNat := by
  have h' := congrArg UInt16.toNat h
  rw [UInt16.toNat_and] at h'
  have hmod := Nat.and_two_pow_sub_one_eq_mod len.toNat 2
  exact Nat.dvd_of_mod_eq_zero (hmod.symm.trans h')

/-- On a message of at least 20 bytes the parser panics exactly if its header is good and one of its
attributes that is looked at does not fit. -/
theorem Message.parse_eq_panicked (t : Target) {buf : Bytes} (hlen : 20 ≤ buf.length) :
    Message.parse t buf = .panicked ↔ HeaderOk buf ∧ ¬ Survives t false (messageTlvs buf) := by
  have hmagic : (slice buf 4 8 : Outcome StunError Bytes) = .ok ((buf.drop 4).take 4) :=
    slice_of_le (by omega) (by omega)
  have htrans : (slice buf 8 20 : Outcome StunError Bytes) = .ok ((buf.drop 8).take 12) :=
    slice_of_le (by omega) (by omega)
  have hid : ((buf.drop 8).take 12).length = 12 := by
    rw [List.length_take,List.length_drop]
    omega
  have hid' : (TransId.fromSlice ((buf.drop 8).take 12) : Outcome StunError TransId) = .ok ⟨_,hid⟩ :=
    dif_pos hid
  unfold Message.parse HeaderOk
  rw [if_neg (by omega : ¬ buf.length < 4),index_of_lt (by omega : 0 < buf.length),
    index_of_lt (by omega : 1 < buf.length),index_of_lt (by omega : 2 < buf.length),
    index_of_lt (by omega : 3 < buf.length),t.sub_of_le hlen,hmagic,htrans,
    sliceFrom_of_le hlen]
  simp only [ok_bind,hid']
  generalize hheader : u16FromBeBytes (buf.getD 2 0) (buf.getD 3 0) = len
  by_cases h₁ : len &&& 3 = 0
  · rw [if_neg (by rw [h₁]; decide)]
    by_cases h₂ : len.toNat = buf.length - 20
    · rw [if_neg (not_not.mpr h₂)]
      by_cases h₃ : (buf.drop 4).take 4 = magic
      · rw [if_neg (not_not.mpr h₃)]
        have hdvd : 4 ∣ (buf.drop 20).length := by
          rw [List.length_drop,← h₂]
          exact dvd_of_and_three h₁
        simp only [h₁,h₂,h₃,true_and]
        rw [bind_eq_panicked]
        refine (or_iff_left ?_).trans
          (parseAttrs_eq_panicked t _ _ 0 (buf.drop 20) {} hdvd (by omega))
        rintro ⟨s,hs,hpanic⟩
        have hoff := parseAttrs_off t _ _ 0 (buf.drop 20) {} hdvd s hs
        rw [List.length_drop] at hoff
        split at hpanic
        · cases hpanic
        · rw [slice_of_le (Nat.zero_le _) (by simp at hoff; omega),ok_bind] at hpanic
          exact Message.complete_ne_panicked _ hpanic
      · rw [if_pos h₃]
        simp [h₃]
    · rw [if_pos h₂]
      simp [h₂]
  · rw [if_pos (UInt16.pos_iff_ne_zero.mpr h₁)]
    simp [h₁]

end Stun
end AnyKvm
