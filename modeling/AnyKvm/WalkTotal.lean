import AnyKvm.StunAnswers
import AnyKvm.WordArith
import Mathlib.Data.List.Chain

/-! The four walks of `webrtc.rs` with the arithmetic of `usize` spelled out: none of them overflows, panics or
goes on for ever, on whatever bytes.
They are the walks of `StunAnswers` and `TurnData`, whose positions are numbers without a bound. -/
namespace AnyKvm
namespace Turn

open Outcome Bytes TlvWalk Word

section MapErr
variable {ε δ α β : Type} {f : ε → δ}

theorem mapErr_bind (x : Outcome ε α) (g : α → Outcome ε β) :
    (x >>= g).mapErr f = x.mapErr f >>= fun a => (g a).mapErr f := by
  cases x <;> rfl

theorem mapErr_ok (a : α) : (Outcome.ok a : Outcome ε α).mapErr f = .ok a := rfl

theorem mapErr_err (e : ε) : (Outcome.err e : Outcome ε α).mapErr f = .err (f e) := rfl

theorem mapErr_ite (c : Prop) [Decidable c] (x y : Outcome ε α) :
    (if c then x else y).mapErr f = if c then x.mapErr f else y.mapErr f := by
  split <;> rfl

theorem mapErr_index (buf : Bytes) (i : ℕ) : (index buf i : Outcome ε UInt8).mapErr f = index buf i := by
  unfold index
  cases buf[i]? <;> rfl

theorem mapErr_slice (buf : Bytes) (i j : ℕ) : (slice buf i j : Outcome ε Bytes).mapErr f = slice buf i j := by
  unfold slice
  split <;> rfl

theorem mapErr_attempt {γ : Type} (x : Outcome γ α) :
    (x.attempt : Outcome ε (Option α)).mapErr f = x.attempt := by
  cases x <;> rfl

end MapErr

section Checked
variable (W : Word)

/-- `(attr_len + 3) & !3` -/
def align4In (len : ℕ) : Outcome Fault ℕ := do
  let n ← W.add len 3
  .ok (n / 4 * 4)

/-- The loop, in at most so many passes. -/
def walkIn {σ : Type} (pkt : Bytes) (stop : ℕ) (body : Attr → σ → Outcome Fault (ForInStep σ)) :
    ℕ → ℕ → σ → Outcome Fault σ
  | 0,_,_ => .panicked
  | passes + 1,pos,s => do
    if (← W.add pos 4) ≤ stop then do
      let t₀ ← index pkt pos
      let t₁ ← index pkt (← W.add pos 1)
      let l₀ ← index pkt (← W.add pos 2)
      let l₁ ← index pkt (← W.add pos 3)
      let len := (u16FromBeBytes l₀ l₁).toNat
      let start ← W.add pos 4
      if (← W.add start len) > pkt.length then .ok s
      else do
        match ← body ⟨u16FromBeBytes t₀ t₁,start,len⟩ s with
        | .done s => .ok s
        | .yield s => walkIn pkt stop body passes (← W.add pos (← W.add 4 (← align4In W len))) s
    else .ok s

def attrsEndIn (data : Bytes) : Outcome Fault ℕ := do
  let msgLen := (u16FromBeBytes (← index data 2) (← index data 3)).toNat
  .ok (min (← W.add 20 msgLen) data.length)

def onMappedAttrIn (data : Bytes) (attr : Attr) (s : Option SocketAddr) :
    Outcome Fault (ForInStep (Option SocketAddr)) := do
  let val ← slice data attr.start (← W.add attr.start attr.len)
  if attr.typ = 0x0020 then do
    let addr ← (parseXorMapped val).mapErr .failed
    .ok (.done (some addr))
  else if attr.typ = 0x0001 then do
    let addr ← (parseMapped val).mapErr .failed
    .ok (.done (some addr))
  else .ok (.yield s)

def parseStunResponseIn (passes : ℕ) (data : Bytes) : Outcome Fault SocketAddr :=
  if data.length < 20 then .err (.failed "STUN response too short")
  else do
    let cookie := u32FromBeBytes (← index data 4) (← index data 5) (← index data 6) (← index data 7)
    if cookie ≠ stunMagic then .err (.failed "invalid STUN magic cookie")
    else do
      let msgType := u16FromBeBytes (← index data 0) (← index data 1)
      if msgType ≠ 0x0101 then .err (.failed s!"STUN msg type {Stun.hex4 msgType}, expected 0x0101")
      else do
        match ← walkIn W data (← attrsEndIn W data) (onMappedAttrIn W data) passes 20 none with
        | some addr => .ok addr
        | none => .err (.failed "no MAPPED-ADDRESS in STUN response")

def onAuthAttrIn (data : Bytes) (attr : Attr) (s : Option Bytes × Option Bytes) :
    Outcome Fault (ForInStep (Option Bytes × Option Bytes)) :=
  if attr.typ = 0x0014 then do
    let val ← slice data attr.start (← W.add attr.start attr.len)
    .ok (.yield (some val,s.2))
  else if attr.typ = 0x0015 then do
    let val ← slice data attr.start (← W.add attr.start attr.len)
    .ok (.yield (s.1,some val))
  else .ok (.yield s)

def parseTurnError401In (passes : ℕ) (data : Bytes) : Outcome Fault (Bytes × Bytes) :=
  if data.length < 20 then .err (.failed "response too short")
  else do
    match ← walkIn W data (← attrsEndIn W data) (onAuthAttrIn W data) passes 20 (none,none) with
    | (some realm,some nonce) => .ok (realm,nonce)
    | _ => .err (.failed "missing REALM or NONCE in 401")

def onTargetAttrIn (data : Bytes) (targetType : UInt16) (attr : Attr) (s : Option Bytes) :
    Outcome Fault (ForInStep (Option Bytes)) := do
  let val ← slice data attr.start (← W.add attr.start attr.len)
  if attr.typ = targetType then .ok (.done (some val)) else .ok (.yield s)

def parseStunAttrIn (passes : ℕ) (data : Bytes) (targetType : UInt16) : Outcome Fault (Option Bytes) :=
  if data.length < 20 then .ok none
  else do walkIn W data (← attrsEndIn W data) (onTargetAttrIn W data targetType) passes 20 none

def onTurnAttrIn (pkt : Bytes) (attr : Attr) (s : Found) : Outcome Fault (ForInStep Found) :=
  if attr.typ = 0x0012 then do
    let val ← slice pkt attr.start (← W.add attr.start attr.len)
    match ← (parseXorMapped val).attempt with
    | some addr => .ok (.yield { s with peerAddr := some addr })
    | none => .ok (.yield s)
  else if attr.typ = 0x0013 then do
    let stop ← W.add attr.start attr.len
    .ok (.yield { s with dataRange := some (attr.start,stop) })
  else .ok (.yield s)

def parseTurnDataIn (passes : ℕ) (pkt : Bytes) : Outcome Fault (Option (SocketAddr × Bytes)) :=
  if pkt.length < 20 then .ok none
  else do
    let msgType := u16FromBeBytes (← index pkt 0) (← index pkt 1)
    if msgType ≠ 0x0017 then .ok none
    else do
      let cookie := u32FromBeBytes (← index pkt 4) (← index pkt 5) (← index pkt 6) (← index pkt 7)
      if cookie ≠ stunMagic then .ok none
      else do
        let stop ← attrsEndIn W pkt
        match ← walkIn W pkt stop (onTurnAttrIn W pkt) passes 20 ⟨none,none⟩ with
        | ⟨some addr,some (start,stop)⟩ => do
          let data ← slice pkt start stop
          .ok (some (addr,data))
        | _ => .ok none

end Checked

section Walk
variable {W : Word} {ε σ : Type} {f : ε → Fault} {pkt : Bytes} {stop : ℕ}

theorem align4In_eq {len : ℕ} (h : W.Fits (len + 3)) : align4In W len = .ok (align4 len) := by
  rw [align4In,add_of_fits h]
  rfl

theorem align4_le (len : ℕ) : align4 len ≤ len + 3 := Nat.div_mul_le_self _ _

/-- All positions of a walk within a packet fit where the packet and one attribute more do. -/
theorem walkIn_eq {body : Attr → σ → Outcome ε (ForInStep σ)} {bodyIn : Attr → σ → Outcome Fault (ForInStep σ)}
    (hstop : stop ≤ pkt.length) (hfits : W.Fits (pkt.length + 65545))
    (hbody : ∀ attr s, attr.start + attr.len ≤ pkt.length → bodyIn attr s = (body attr s).mapErr f)
    (passes pos : ℕ) (hpos : pos ≤ pkt.length + 3) (s : σ) :
    walkIn W pkt stop bodyIn passes pos s = (walk pkt stop body passes pos s).mapErr f := by
  induction passes generalizing pos s with
  | zero => rfl
  | succ passes ih =>
    have hlen : (attrAt pkt pos).len < 65536 := UInt16.toNat_lt _
    have hstart : (attrAt pkt pos).start = pos + 4 := rfl
    have halign := align4_le (attrAt pkt pos).len
    have hpos₄ : W.add pos 4 = .ok (pos + 4) := add_of_fits (hfits.mono (by omega))
    rw [walk_succ body hstop,walkIn,hpos₄,ok_bind,mapErr_ite]
    by_cases h : pos + 4 ≤ stop
    · have hadd : ∀ i, i < 4 → W.add pos i = .ok (pos + i) := fun i hi => add_of_fits (hfits.mono (by omega))
      have hread : ∀ i, i < 4 → (index pkt (pos + i) : Outcome Fault UInt8) = .ok (pkt.getD (pos + i) 0) :=
        fun i hi => index_of_lt (by omega)
      have hread₀ : (index pkt pos : Outcome Fault UInt8) = .ok (pkt.getD pos 0) := index_of_lt (by omega)
      simp only [if_pos h,hread₀,hadd 1 (by omega),hadd 2 (by omega),hadd 3 (by omega),hread 1 (by omega),
        hread 2 (by omega),hread 3 (by omega),ok_bind]
      change (W.add (attrAt pkt pos).start (attrAt pkt pos).len >>= fun valueEnd =>
        if valueEnd > pkt.length then .ok s else bodyIn (attrAt pkt pos) s >>= _) = _
      rw [add_of_fits (hfits.mono (by omega)),ok_bind]
      by_cases hvalue : (attrAt pkt pos).start + (attrAt pkt pos).len ≤ pkt.length
      · rw [if_neg (Nat.not_lt.mpr hvalue),if_pos (And.intro h hvalue),hbody _ s hvalue,mapErr_bind]
        refine bind_congr fun r _ => ?_
        cases r with
        | done s => rfl
        | yield s =>
          change (align4In W (attrAt pkt pos).len >>= _) = _
          rw [align4In_eq (hfits.mono (by omega)),ok_bind,add_of_fits (hfits.mono (by omega)),ok_bind,
            add_of_fits (hfits.mono (by omega)),ok_bind]
          exact ih _ (by omega) s
      · rw [if_pos (Nat.not_le.mp hvalue),if_neg fun hc => hvalue (And.right hc)]
        rfl
    · rw [if_neg h,if_neg fun hc => h (And.left hc)]
      rfl

theorem attrs_passes (passes passes' : ℕ) {pos : ℕ} (h : stop < pos + 4 * passes) (h' : stop < pos + 4 * passes') :
    attrs pkt stop passes pos = attrs pkt stop passes' pos := by
  induction passes generalizing passes' pos with
  | zero => exact (attrs_behind (by omega)).symm
  | succ passes ih =>
    cases passes' with
    | zero => exact attrs_behind (by omega)
    | succ passes' =>
      rw [attrs,attrs]
      split
      · exact congrArg _ (ih passes' (by omega) (by omega))
      · rfl

/-- Each attribute starts at least four bytes behind the one before. -/
theorem attrs_isChain (pkt : Bytes) (stop passes pos : ℕ) :
    (attrs pkt stop passes pos).IsChain fun a b => a.start + 4 ≤ b.start := by
  induction passes generalizing pos with
  | zero => exact List.isChain_nil
  | succ passes ih =>
    rw [attrs]
    split
    · refine List.isChain_cons.mpr ⟨fun b hb => ?_,ih _⟩
      cases passes with
      | zero => cases hb
      | succ passes =>
        rw [attrs] at hb
        split at hb
        · cases hb
          change pos + 4 + 4 ≤ pos + (4 + align4 (attrAt pkt pos).len) + 4
          omega
        · cases hb
    · exact List.isChain_nil

theorem eq_attrAt_of_mem {passes pos : ℕ} {attr : Attr} (h : attr ∈ attrs pkt stop passes pos) :
    ∃ p, pos ≤ p ∧ attr = attrAt pkt p := by
  induction passes generalizing pos with
  | zero => cases h
  | succ passes ih =>
    rw [attrs] at h
    split at h
    · rcases List.mem_cons.mp h with rfl | h
      · exact ⟨pos,Nat.le_refl _,rfl⟩
      · obtain ⟨p,hp,heq⟩ := ih h
        exact ⟨p,by omega,heq⟩
    · cases h

end Walk

section Parsers
variable {W : Word} {ε σ : Type} {f : ε → Fault} {data : Bytes} {passes : ℕ}

theorem fits_walk (hbits : ∀ n ∈ W.bits, 32 ≤ n) (hholds : W.Holds data.length) : W.Fits (data.length + 65545) := by
  intro n hn
  have hhalf := hholds n hn
  have hpow : 2 ^ 32 ≤ 2 ^ n := Nat.pow_le_pow_right Nat.two_pos (hbits n hn)
  omega

variable (hfits : W.Fits (data.length + 65545)) (hpasses : data.length ≤ 4 * passes)
include hfits

theorem attrsEndIn_eq (hlen : 20 ≤ data.length) : attrsEndIn W data =
    .ok (min (20 + (u16FromBeBytes (data.getD 2 0) (data.getD 3 0)).toNat) data.length) := by
  have hsmall : (u16FromBeBytes (data.getD 2 0) (data.getD 3 0)).toNat < 65536 := UInt16.toNat_lt _
  unfold attrsEndIn
  rw [index_of_lt (by omega : 2 < data.length),index_of_lt (by omega : 3 < data.length),ok_bind,ok_bind]
  change (W.add 20 (u16FromBeBytes (data.getD 2 0) (data.getD 3 0)).toNat >>= _) = _
  rw [add_of_fits (hfits.mono (by omega)),ok_bind]

theorem slice_add {attr : Attr} (h : attr.start + attr.len ≤ data.length) {α : Type}
    (k : Bytes → Outcome Fault α) : (W.add attr.start attr.len >>= fun stop => slice data attr.start stop >>= k) =
      slice data attr.start (attr.start + attr.len) >>= k := by
  rw [add_of_fits (hfits.mono (by omega)),ok_bind]

include hpasses

theorem walkIn_messageAttrs (hlen : 20 ≤ data.length) {body : Attr → σ → Outcome ε (ForInStep σ)}
    {bodyIn : Attr → σ → Outcome Fault (ForInStep σ)}
    (hbody : ∀ attr s, attr.start + attr.len ≤ data.length → bodyIn attr s = (body attr s).mapErr f) (s : σ) :
    (do walkIn W data (← attrsEndIn W data) bodyIn passes 20 s) =
      (forIn (messageAttrs data) s body : Outcome ε σ).mapErr f := by
  rw [attrsEndIn_eq hfits hlen,ok_bind,walkIn_eq (Nat.min_le_right _ _) hfits hbody _ _ (by omega),
    walk_eq_forIn body (Nat.min_le_right _ _) _ _ (by omega) (by omega),messageAttrs,
    attrs_passes passes data.length (by omega) (by omega)]

theorem parseTurnError401In_eq :
    parseTurnError401In W passes data = (parseTurnError401 data).mapErr .failed := by
  unfold parseTurnError401In parseTurnError401
  by_cases hlen : data.length < 20
  · rw [if_pos hlen,if_pos hlen]
    rfl
  · have hbody : ∀ attr s, attr.start + attr.len ≤ data.length →
        onAuthAttrIn W data attr s = (onAuthAttr data attr s).mapErr .failed := by
      intro attr s hattr
      unfold onAuthAttrIn onAuthAttr
      rw [slice_add hfits hattr,slice_add hfits hattr]
      simp only [mapErr_ite,mapErr_bind,mapErr_slice,mapErr_ok]
    have hlen := Nat.not_lt.mp hlen
    rw [if_neg (Nat.not_lt.mpr hlen),if_neg (Nat.not_lt.mpr hlen),← bind_bind,
      walkIn_messageAttrs hfits hpasses hlen hbody,← bind_bind,walk_messageAttrs hlen,mapErr_bind]
    refine bind_congr fun r _ => ?_
    rcases r with ⟨_ | realm,_ | nonce⟩ <;> rfl

theorem parseStunAttrIn_eq (targetType : UInt16) :
    parseStunAttrIn W passes data targetType = (parseStunAttr data targetType).mapErr .failed := by
  unfold parseStunAttrIn parseStunAttr
  by_cases hlen : data.length < 20
  · rw [if_pos hlen,if_pos hlen]
    rfl
  · have hbody : ∀ attr s, attr.start + attr.len ≤ data.length →
        onTargetAttrIn W data targetType attr s = (onTargetAttr data targetType attr s).mapErr .failed := by
      intro attr s hattr
      unfold onTargetAttrIn onTargetAttr
      rw [slice_add hfits hattr]
      simp only [mapErr_ite,mapErr_bind,mapErr_slice,mapErr_ok]
    have hlen := Nat.not_lt.mp hlen
    rw [if_neg (Nat.not_lt.mpr hlen),if_neg (Nat.not_lt.mpr hlen),walkIn_messageAttrs hfits hpasses hlen hbody,
      walk_messageAttrs hlen]

theorem parseStunResponseIn_eq :
    parseStunResponseIn W passes data = (parseStunResponse data).mapErr .failed := by
  unfold parseStunResponseIn parseStunResponse
  by_cases hlen : data.length < 20
  · rw [if_pos hlen,if_pos hlen]
    rfl
  · have hbody : ∀ attr s, attr.start + attr.len ≤ data.length →
        onMappedAttrIn W data attr s = (onMappedAttr data attr s).mapErr .failed := by
      intro attr s hattr
      unfold onMappedAttrIn onMappedAttr
      rw [slice_add hfits hattr]
      simp only [mapErr_ite,mapErr_bind,mapErr_slice,mapErr_ok]
    have hlen := Nat.not_lt.mp hlen
    rw [if_neg (Nat.not_lt.mpr hlen),if_neg (Nat.not_lt.mpr hlen)]
    simp only [mapErr_bind,mapErr_index,mapErr_ite,mapErr_err]
    refine bind_congr fun b₀ _ => bind_congr fun b₁ _ => bind_congr fun b₂ _ => bind_congr fun b₃ _ => ?_
    refine ite_congr rfl (fun _ => rfl) fun _ => bind_congr fun t₀ _ => bind_congr fun t₁ _ => ?_
    refine ite_congr rfl (fun _ => rfl) fun _ => ?_
    have hwalk := congrArg (mapErr Fault.failed) (walk_messageAttrs hlen (onMappedAttr data) none)
    rw [mapErr_bind] at hwalk
    rw [← bind_bind,walkIn_messageAttrs hfits hpasses hlen hbody,← bind_bind,hwalk]
    refine bind_congr fun r _ => ?_
    cases r <;> rfl

theorem parseTurnDataIn_eq : parseTurnDataIn W passes data = (parseTurnData data).mapErr nofun := by
  unfold parseTurnDataIn parseTurnData
  by_cases hlen : data.length < 20
  · rw [if_pos hlen,if_pos hlen]
    rfl
  · have hbody : ∀ attr s, attr.start + attr.len ≤ data.length →
        onTurnAttrIn W data attr s = (onTurnAttr data attr s).mapErr nofun := by
      intro attr s hattr
      unfold onTurnAttrIn onTurnAttr
      rw [slice_add hfits hattr,add_of_fits (hfits.mono (by omega)),ok_bind]
      simp only [mapErr_ite,mapErr_bind,mapErr_slice,mapErr_attempt,mapErr_ok]
      refine ite_congr rfl (fun _ => bind_congr fun val _ => bind_congr fun addr _ => ?_) fun _ => rfl
      cases addr <;> rfl
    have hlen := Nat.not_lt.mp hlen
    rw [if_neg (Nat.not_lt.mpr hlen),if_neg (Nat.not_lt.mpr hlen)]
    simp only [mapErr_bind,mapErr_index,mapErr_ite,mapErr_ok]
    refine bind_congr fun t₀ _ => bind_congr fun t₁ _ => ite_congr rfl (fun _ => rfl) fun _ => ?_
    refine bind_congr fun b₀ _ => bind_congr fun b₁ _ => bind_congr fun b₂ _ => bind_congr fun b₃ _ => ?_
    refine ite_congr rfl (fun _ => rfl) fun _ => ?_
    rw [← bind_bind,walkIn_messageAttrs hfits hpasses hlen hbody,index_of_lt (by omega : 2 < data.length),
      index_of_lt (by omega : 3 < data.length),ok_bind,ok_bind,
      walk_eq_forIn _ (Nat.min_le_right _ _) _ _ (by omega) (by omega)]
    refine bind_congr fun r _ => ?_
    rcases r with ⟨_ | addr,_ | ⟨start,stop⟩⟩
    · rfl
    · rfl
    · rfl
    · simp only [mapErr_bind,mapErr_slice,mapErr_ok]

end Parsers

/-- A piece of a message that is the value of an attribute of it: its type and its length stand before it. -/
def IsValue (data : Bytes) (typ : UInt16) (val : Bytes) : Prop :=
  ∃ front back, data = front ++ val ++ back ∧ 24 ≤ front.length ∧
    u16FromBeBytes (data.getD (front.length - 4) 0) (data.getD (front.length - 3) 0) = typ ∧
    val.length = (u16FromBeBytes (data.getD (front.length - 2) 0) (data.getD (front.length - 1) 0)).toNat

theorem isValue_value {data : Bytes} {attr : Attr} (h : attr ∈ messageAttrs data) :
    IsValue data attr.typ (value data attr) := by
  have hwithin := attrs_within h
  obtain ⟨p,hp,rfl⟩ := eq_attrAt_of_mem h
  have hstart : (attrAt data p).start = p + 4 := rfl
  have hfront : (data.take (attrAt data p).start).length = p + 4 := by
    rw [List.length_take,hstart]
    omega
  have hvalue : (value data (attrAt data p)).length = (attrAt data p).len := by
    rw [value,List.length_take,List.length_drop]
    omega
  refine ⟨data.take (attrAt data p).start,data.drop ((attrAt data p).start + (attrAt data p).len),?_,?_,?_,?_⟩
  · rw [value,List.append_assoc,← List.drop_drop,List.take_append_drop,List.take_append_drop]
  · omega
  · rw [hfront]
    rfl
  · rw [hfront,hvalue]
    rfl

theorem isValue_of_find? {data : Bytes} {typ : UInt16} {attr : Attr}
    (h : ((messageAttrs data).find? fun attr => attr.typ = typ) = some attr) : IsValue data typ (value data attr) := by
  have htyp : attr.typ = typ := by simpa using List.find?_some h
  exact htyp ▸ isValue_value (List.mem_of_find?_eq_some h)

theorem isValue_of_relayed? {data val : Bytes} {addr : SocketAddr} (h : relayed? data = some (addr,val)) :
    IsValue data 0x0013 val := by
  unfold relayed? at h
  split at h
  · split at h
    · rename_i attr _ hlast
      cases h
      obtain ⟨found,hfound,hdata⟩ := List.mem_filterMap.mp (List.mem_of_getLast? hlast)
      unfold data? at hdata
      split at hdata
      · rename_i htyp
        cases hdata
        exact htyp ▸ isValue_value hfound
      · cases hdata
    · cases h
  · cases h

/-- A call that neither panics nor overflows. -/
def Sound {α : Type} (x : Outcome Fault α) : Prop := x ≠ .panicked ∧ x ≠ .err .overflow

theorem sound_mapErr {α : Type} {x : Outcome String α} (h : x ≠ .panicked) : Sound (x.mapErr .failed) := by
  cases x with
  | ok a => exact ⟨nofun,nofun⟩
  | err e => exact ⟨nofun,nofun⟩
  | panicked => exact absurd rfl h

/-- On all bytes that a slice can have, in at most a quarter as many passes. -/
theorem walks_total (W : Word) (data : Bytes) (passes : ℕ) (targetType : UInt16) (hbits : ∀ n ∈ W.bits, 32 ≤ n)
    (hholds : W.Holds data.length) (hpasses : data.length ≤ 4 * passes) :
    (Sound (parseStunResponseIn W passes data) ∧ Sound (parseTurnError401In W passes data) ∧
      Sound (parseStunAttrIn W passes data targetType) ∧ Sound (parseTurnDataIn W passes data)) ∧
    ((messageAttrs data).IsChain fun a b => a.start + 4 ≤ b.start) ∧
    (∀ val, parseStunAttrIn W passes data targetType = .ok (some val) → IsValue data targetType val) ∧
    ∀ addr val, parseTurnDataIn W passes data = .ok (some (addr,val)) → IsValue data 0x0013 val := by
  have hfits := fits_walk hbits hholds
  rw [parseStunResponseIn_eq hfits hpasses,parseTurnError401In_eq hfits hpasses,
    parseStunAttrIn_eq hfits hpasses targetType,parseTurnDataIn_eq hfits hpasses,parseStunAttr_eq,parseTurnData_eq]
  refine ⟨⟨sound_mapErr ?_,sound_mapErr (parseTurnError401_ne_panicked data),sound_mapErr nofun,nofun,nofun⟩,
    attrs_isChain _ _ _ _,fun val hval => ?_,fun addr val hval => ?_⟩
  · intro hpanic
    have hattempt := parseStunResponse_attempt data
    rw [hpanic] at hattempt
    cases hattempt
  · have hfind := Outcome.ok.inj hval
    split at hfind
    · obtain ⟨attr,hattr,rfl⟩ := Option.map_eq_some_iff.mp hfind
      exact isValue_of_find? hattr
    · cases hfind
  · exact isValue_of_relayed? (Outcome.ok.inj hval)

/-- A Data indication that ends within the header of its second attribute. -/
def truncatedIndication : Bytes :=
  [0x00,0x17,0x00,0x10] ++ u32ToBeBytes stunMagic ++ List.replicate 12 0 ++
    [0x00,0x13,0x00,0x01,7,0,0,0,0x00,0x12,0xFF]

theorem walks_total_truncated :
    Sound (parseTurnDataIn ⟨some 32,true⟩ 8 truncatedIndication) ∧ IsValue truncatedIndication 0x0013 [7] :=
  have h := walks_total ⟨some 32,true⟩ truncatedIndication 8 0x0013 (by decide) (by decide) (by decide)
  ⟨h.1.2.2.2,h.2.2.1 [7] (by decide)⟩

end Turn
end AnyKvm
