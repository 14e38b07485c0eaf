import AnyKvm.StunClient

/-! `webrtc.rs`: what the agent reads out of the answers of its STUN and TURN servers.
Each parser is compared with the list of attributes of the answer; the answer to an Allocate request
is the only one that can panic. -/
namespace AnyKvm
namespace Turn

open Outcome Bytes TlvWalk

/-- A `for` loop that leaves at the first attribute it looks for. -/
theorem forIn_eq_find {ε σ : Type} {body : Attr → σ → Outcome ε (ForInStep σ)} {p : Attr → Bool}
    {f : Attr → Outcome ε σ} {s : σ} {as : List Attr}
    (h : ∀ attr ∈ as, body attr s =
      if p attr = true then f attr >>= fun t => .ok (.done t) else .ok (.yield s)) :
    forIn as s body = match as.find? p with
      | some attr => f attr
      | none => .ok s := by
  induction as with
  | nil => rfl
  | cons attr as ih =>
    rw [List.forIn_cons,h attr (List.mem_cons_self ..),List.find?_cons]
    cases hp : p attr with
    | true =>
      rw [if_pos rfl]
      change (f attr >>= _ >>= _) = f attr
      cases f attr <;> rfl
    | false =>
      rw [if_neg Bool.false_ne_true]
      exact ih fun a ha => h a (List.mem_cons_of_mem attr ha)

section Header
variable {ε : Type} {data : Bytes}

abbrev msgType (data : Bytes) : UInt16 := u16FromBeBytes (data.getD 0 0) (data.getD 1 0)

def hasCookie (data : Bytes) : Prop :=
  u32FromBeBytes (data.getD 4 0) (data.getD 5 0) (data.getD 6 0) (data.getD 7 0) = stunMagic

instance (data : Bytes) : Decidable (hasCookie data) := inferInstanceAs (Decidable (_ = stunMagic))

theorem attrsEnd_eq (h : 20 ≤ data.length) : (attrsEnd data : Outcome ε ℕ) =
    .ok (min (20 + (u16FromBeBytes (data.getD 2 0) (data.getD 3 0)).toNat) data.length) := by
  unfold attrsEnd
  rw [index_of_lt (by omega : 2 < data.length),index_of_lt (by omega : 3 < data.length)]
  rfl

/-- The walk over the attributes of a message. -/
theorem walk_messageAttrs {σ : Type} (h : 20 ≤ data.length)
    (body : Attr → σ → Outcome ε (ForInStep σ)) (s : σ) :
    (do walk data (← attrsEnd data) body data.length 20 s) = forIn (messageAttrs data) s body := by
  rw [attrsEnd_eq h,ok_bind]
  exact walk_eq_forIn body (Nat.min_le_right _ _) _ _ (by omega) (by omega) s

theorem slice_value {attr : Attr} (h : attr ∈ messageAttrs data) :
    (slice data attr.start (attr.start + attr.len) : Outcome ε Bytes) = .ok (value data attr) := by
  rw [slice_of_le (Nat.le_add_right _ _) (attrs_within h),Nat.add_sub_cancel_left]
  rfl

end Header

/-- The address in the value of a MAPPED-ADDRESS. -/
def mapped? (val : Bytes) : Option SocketAddr :=
  if 8 ≤ val.length ∧ val.getD 1 0 = 0x01 then
    some ⟨.v4 (u32FromBeBytes (val.getD 4 0) (val.getD 5 0) (val.getD 6 0) (val.getD 7 0)),
      u16FromBeBytes (val.getD 2 0) (val.getD 3 0)⟩
  else none

theorem parseMapped_attempt {δ : Type} (val : Bytes) :
    ((parseMapped val).attempt : Outcome δ _) = .ok (mapped? val) := by
  unfold parseMapped mapped?
  by_cases h : val.length < 8
  · rw [if_pos h,if_neg fun hc => absurd hc.1 (Nat.not_le.mpr h)]
    rfl
  · rw [if_neg h]
    have h' : 8 ≤ val.length := Nat.not_lt.mp h
    have read : ∀ i, i < 8 → (index val i : Outcome String UInt8) = .ok (val.getD i 0) :=
      fun i hi => index_of_lt (Nat.lt_of_lt_of_le hi h')
    rw [read 1 (by omega),read 2 (by omega),read 3 (by omega),read 4 (by omega),read 5 (by omega),
      read 6 (by omega),read 7 (by omega)]
    simp only [ok_bind,h',true_and]
    split <;> rfl

def isMapped (attr : Attr) : Bool := attr.typ = 0x0020 ∨ attr.typ = 0x0001

def mappedValue? (data : Bytes) (attr : Attr) : Option SocketAddr :=
  if attr.typ = 0x0020 then xorMapped? (value data attr) else mapped? (value data attr)

/-- The address that a Binding response gives: that of its first attribute of the two kinds. -/
def mappedAddr? (data : Bytes) : Option SocketAddr :=
  if 20 ≤ data.length ∧ hasCookie data ∧ msgType data = 0x0101 then
    ((messageAttrs data).find? isMapped).bind (mappedValue? data)
  else none

/-- The relay address that an Allocate response gives. -/
def relayAddr? (resp : Bytes) : Option SocketAddr :=
  if 20 ≤ resp.length ∧ msgType resp = 0x0103 then
    ((messageAttrs resp).find? fun attr => attr.typ = 0x0016).bind fun attr =>
      xorMapped? (value resp attr)
  else none

theorem cases_of_attempt {ε α : Type} {x : Outcome ε α} {o : Option α}
    (h : (x.attempt : Panicking (Option α)) = .ok o) :
    (∃ a, x = .ok a ∧ o = some a) ∨ ∃ e, x = .err e ∧ o = none := by
  cases x with
  | ok a => exact .inl ⟨a,rfl,(Outcome.ok.inj h).symm⟩
  | err e => exact .inr ⟨e,rfl,(Outcome.ok.inj h).symm⟩
  | panicked => cases h

/-- The value read out of the attribute on which the loop of `parseStunResponse` returns. -/
def parseMappedAttr (data : Bytes) (attr : Attr) : Outcome String SocketAddr :=
  if attr.typ = 0x0020 then parseXorMapped (value data attr) else parseMapped (value data attr)

theorem onMappedAttr_eq {data : Bytes} {attr : Attr} (h : attr ∈ messageAttrs data)
    (s : Option SocketAddr) : onMappedAttr data attr s =
      if isMapped attr = true then
        (parseMappedAttr data attr >>= fun addr => .ok (some addr)) >>= fun t => .ok (.done t)
      else .ok (.yield s) := by
  unfold onMappedAttr isMapped parseMappedAttr
  rw [slice_value h,ok_bind]
  by_cases hxor : attr.typ = 0x0020
  · simp only [hxor,if_true,true_or,decide_true]
    rw [bind_bind]
    rfl
  · by_cases hmapped : attr.typ = 0x0001
    · rw [if_neg hxor,if_pos hmapped,if_pos (decide_eq_true (Or.inr hmapped)),if_neg hxor,bind_bind]
      rfl
    · rw [if_neg hxor,if_neg hmapped,if_neg]
      simp [hxor,hmapped]

theorem parseMappedAttr_attempt (data : Bytes) (attr : Attr) :
    ((parseMappedAttr data attr).attempt : Panicking _) = .ok (mappedValue? data attr) := by
  unfold parseMappedAttr mappedValue?
  split
  · exact parseXorMapped_attempt _
  · exact parseMapped_attempt _

/-- `parse_stun_response` in terms of the attributes: it goes by the first one of the two kinds. -/
theorem parseStunResponse_eq (data : Bytes) : parseStunResponse data =
    if data.length < 20 then .err "STUN response too short"
    else if ¬ hasCookie data then .err "invalid STUN magic cookie"
    else if msgType data ≠ 0x0101 then
      .err s!"STUN msg type {Stun.hex4 (msgType data)}, expected 0x0101"
    else match (messageAttrs data).find? isMapped with
      | some attr => parseMappedAttr data attr
      | none => .err "no MAPPED-ADDRESS in STUN response" := by
  unfold parseStunResponse
  by_cases hlen : data.length < 20
  · rw [if_pos hlen,if_pos hlen]
  · have hlen' : 20 ≤ data.length := Nat.not_lt.mp hlen
    have read : ∀ i, i < 20 → (index data i : Outcome String UInt8) = .ok (data.getD i 0) :=
      fun i hi => index_of_lt (Nat.lt_of_lt_of_le hi hlen')
    rw [if_neg hlen,if_neg hlen,read 0 (by omega),read 1 (by omega),read 4 (by omega),read 5 (by omega),
      read 6 (by omega),read 7 (by omega)]
    simp only [ok_bind]
    by_cases hcookie : hasCookie data
    · rw [if_neg (show ¬ _ ≠ stunMagic from not_not.mpr hcookie),if_neg (not_not.mpr hcookie)]
      by_cases htype : msgType data = 0x0101
      · rw [if_neg (show ¬ _ ≠ (0x0101 : UInt16) from not_not.mpr htype),if_neg (not_not.mpr htype),
          ← bind_bind,walk_messageAttrs hlen',forIn_eq_find fun attr hattr => onMappedAttr_eq hattr none]
        cases (messageAttrs data).find? isMapped with
        | none => rfl
        | some attr =>
          change ((parseMappedAttr data attr >>= _) >>= _) = parseMappedAttr data attr
          cases parseMappedAttr data attr <;> rfl
      · rw [if_pos (show _ ≠ (0x0101 : UInt16) from htype),if_pos htype]
    · rw [if_pos (show _ ≠ stunMagic from hcookie),if_pos hcookie]

theorem parseStunResponse_attempt (data : Bytes) :
    ((parseStunResponse data).attempt : Panicking _) = .ok (mappedAddr? data) := by
  rw [parseStunResponse_eq,mappedAddr?]
  by_cases hlen : data.length < 20
  · rw [if_pos hlen,if_neg fun h => absurd h.1 (Nat.not_le.mpr hlen)]
    rfl
  rw [if_neg hlen]
  by_cases hcookie : hasCookie data
  · rw [if_neg (not_not.mpr hcookie)]
    by_cases htype : msgType data = 0x0101
    · rw [if_neg (not_not.mpr htype),if_pos ⟨Nat.not_lt.mp hlen,hcookie,htype⟩]
      cases (messageAttrs data).find? isMapped with
      | none => rfl
      | some attr => exact parseMappedAttr_attempt data attr
    · rw [if_pos htype,if_neg fun h => htype h.2.2]
      rfl
  · rw [if_pos hcookie,if_neg fun h => hcookie h.2.1]
    rfl

theorem onTargetAttr_eq {data : Bytes} {targetType : UInt16} {attr : Attr}
    (h : attr ∈ messageAttrs data) (s : Option Bytes) : onTargetAttr data targetType attr s =
      if decide (attr.typ = targetType) = true then
        (.ok (some (value data attr)) : Outcome String _) >>= fun t => .ok (.done t)
      else .ok (.yield s) := by
  unfold onTargetAttr
  rw [slice_value h,ok_bind]
  by_cases htyp : attr.typ = targetType <;> simp [htyp]

theorem parseStunAttr_eq (data : Bytes) (targetType : UInt16) :
    parseStunAttr data targetType = .ok (if 20 ≤ data.length then
      ((messageAttrs data).find? fun attr => attr.typ = targetType).map (value data) else none) := by
  unfold parseStunAttr
  by_cases hlen : data.length < 20
  · rw [if_pos hlen,if_neg (Nat.not_le.mpr hlen)]
  · rw [if_neg hlen,if_pos (Nat.not_lt.mp hlen),walk_messageAttrs (Nat.not_lt.mp hlen),
      forIn_eq_find fun attr hattr => onTargetAttr_eq hattr none]
    cases (messageAttrs data).find? fun attr => attr.typ = targetType <;> rfl

/-- A response that is too short for its type makes `turn_allocate` panic. -/
theorem parseAllocateResponse_short {resp : Bytes} (h : resp.length < 2) :
    parseAllocateResponse resp = .panicked := by
  unfold parseAllocateResponse
  match resp,h with
  | [],_ => rfl
  | [_],_ => rfl

theorem parseAllocateResponse_attempt {resp : Bytes} (h : 2 ≤ resp.length) :
    ((parseAllocateResponse resp).attempt : Panicking _) = .ok (relayAddr? resp) := by
  unfold parseAllocateResponse relayAddr?
  rw [index_of_lt (by omega : 0 < resp.length),index_of_lt (by omega : 1 < resp.length)]
  simp only [ok_bind]
  by_cases htype : msgType resp = 0x0103
  · rw [if_neg (show ¬ _ ≠ (0x0103 : UInt16) from not_not.mpr htype),parseStunAttr_eq]
    by_cases hlen : 20 ≤ resp.length
    · rw [if_pos hlen,if_pos ⟨hlen,htype⟩]
      cases (messageAttrs resp).find? fun attr => attr.typ = 0x0016 with
      | none => rfl
      | some attr =>
        change (((parseXorMapped (value resp attr)).attempt >>= _ : Outcome String _).attempt :
          Panicking _) = .ok (xorMapped? (value resp attr))
        rw [parseXorMapped_attempt,ok_bind]
        cases xorMapped? (value resp attr) <;> rfl
    · rw [if_neg hlen,if_neg fun h => hlen h.1]
      rfl
  · have hnone : ¬ (20 ≤ resp.length ∧ msgType resp = 0x0103) := fun h => htype h.2
    rw [if_pos (show _ ≠ (0x0103 : UInt16) from htype),if_neg hnone]
    split <;> rfl

/-- One pass of the loop of `parseTurnError401`. -/
def authFound (data : Bytes) (s : Option Bytes × Option Bytes) (attr : Attr) :
    Option Bytes × Option Bytes :=
  if attr.typ = 0x0014 then (some (value data attr),s.2)
  else if attr.typ = 0x0015 then (s.1,some (value data attr))
  else s

def lastValue? (data : Bytes) (typ : UInt16) : Option Bytes :=
  last? (fun attr => if attr.typ = typ then some (value data attr) else none) (messageAttrs data)

theorem foldl_authFound (data : Bytes) (as : List Attr) :
    as.foldl (authFound data) (none,none) =
      (last? (fun attr => if attr.typ = 0x0014 then some (value data attr) else none) as,
        last? (fun attr => if attr.typ = 0x0015 then some (value data attr) else none) as) := by
  induction as using List.reverseRecOn with
  | nil => rfl
  | append_singleton as attr ih =>
    rw [List.foldl_append,ih,last?_snoc,last?_snoc,List.foldl_cons,List.foldl_nil,authFound]
    by_cases hrealm : attr.typ = 0x0014
    · simp [hrealm]
    · by_cases hnonce : attr.typ = 0x0015 <;> simp [hrealm,hnonce]

theorem parseTurnError401_eq (data : Bytes) : parseTurnError401 data =
    if data.length < 20 then .err "response too short"
    else match lastValue? data 0x0014,lastValue? data 0x0015 with
      | some realm,some nonce => .ok (realm,nonce)
      | _,_ => .err "missing REALM or NONCE in 401" := by
  unfold parseTurnError401
  by_cases hlen : data.length < 20
  · rw [if_pos hlen,if_pos hlen]
  · have hbody : ∀ attr ∈ messageAttrs data, ∀ s,
        onAuthAttr data attr s = .ok (.yield (authFound data s attr)) := by
      intro attr hattr s
      unfold onAuthAttr authFound
      rw [slice_value hattr]
      split
      · rfl
      · split <;> rfl
    have hfold : (messageAttrs data).foldl (authFound data) (none,none) =
        (lastValue? data 0x0014,lastValue? data 0x0015) := foldl_authFound data _
    rw [if_neg hlen,if_neg hlen,← bind_bind,walk_messageAttrs (Nat.not_lt.mp hlen),forIn_eq_foldl hbody,
      ok_bind,hfold]
    cases lastValue? data 0x0014 with
    | none => rfl
    | some realm => cases lastValue? data 0x0015 <;> rfl

theorem parseTurnError401_ne_panicked (data : Bytes) : parseTurnError401 data ≠ .panicked := by
  rw [parseTurnError401_eq]
  split
  · simp
  · split <;> simp

end Turn
end AnyKvm
