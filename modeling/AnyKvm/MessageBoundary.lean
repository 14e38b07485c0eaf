import AnyKvm.MappedPrecedence

/-! Whether the parsers of `webrtc.rs` keep within the declared length of a message.
The walk asks for the header of an attribute to stand before the declared end, but for its value only to
stand within the datagram. -/
namespace AnyKvm
namespace Turn

open Outcome Bytes TlvWalk

/-- Where the length field says that a message ends. -/
def declaredEnd (data : Bytes) : ℕ := 20 + headerLength data

/-- A datagram without what stands behind its message. -/
def declared (data : Bytes) : Bytes := data.take (declaredEnd data)

def innerAttrs (data : Bytes) : List Attr :=
  fitting data (min (declaredEnd data) data.length) data.length 20

/-- The attribute, if there is one, that begins within the message and ends behind it, in the datagram. -/
def cutAttr? (data : Bytes) : Option Attr :=
  (cut? data (min (declaredEnd data) data.length) data.length 20).filter
    fun attr => attr.start + attr.len ≤ data.length

/-- The functions that walk over a message. -/
inductive Parser
  | stunResponse
  | turnError401
  | stunAttr (targetType : UInt16)
  | turnData
  deriving DecidableEq, Repr

namespace Parser

def Result : Parser → Type
  | stunResponse => Outcome String SocketAddr
  | turnError401 => Outcome String (Bytes × Bytes)
  | stunAttr _ => Outcome String (Option Bytes)
  | turnData => Panicking (Option (SocketAddr × Bytes))

def parse : (p : Parser) → Bytes → p.Result
  | stunResponse,data => parseStunResponse data
  | turnError401,data => parseTurnError401 data
  | stunAttr targetType,data => parseStunAttr data targetType
  | turnData,data => parseTurnData data

def Reads : Parser → Bytes → Prop
  | stunResponse,data => BindingResponse data
  | turnData,data => isDataIndication data = true
  | _,_ => True

instance (p : Parser) (data : Bytes) : Decidable (p.Reads data) := by
  cases p <;> unfold Reads <;> infer_instance

def wants : Parser → UInt16 → Bool
  | stunResponse,typ => typ = 0x0020 ∨ typ = 0x0001
  | turnError401,typ => typ = 0x0014 ∨ typ = 0x0015
  | stunAttr targetType,typ => typ = targetType
  | turnData,typ => typ = 0x0012 ∨ typ = 0x0013

/-- Whether the walk is over with the first such attribute. -/
def stopsAtFirst : Parser → Bool
  | stunResponse | stunAttr _ => true
  | turnError401 | turnData => false

def uses (p : Parser) (data : Bytes) : List Attr :=
  if ¬ p.Reads data then []
  else if p.stopsAtFirst then ((messageAttrs data).find? fun attr => p.wants attr.typ).toList
  else (messageAttrs data).filter fun attr => p.wants attr.typ

/-- The values that are used lie within the message, and what stands behind it makes no difference. -/
structure Bounded (p : Parser) (data : Bytes) : Prop where
  inside : ∀ attr ∈ p.uses data, 20 ≤ attr.start ∧ attr.start + attr.len ≤ declaredEnd data
  result : p.parse data = p.parse (declared data)

/-- No value that the parser looks for goes on, in the datagram, across the end of the message; unless the
walk has been over before. -/
def Fits (p : Parser) (data : Bytes) : Prop :=
  p.Reads data → ∀ attr, cutAttr? data = some attr → p.wants attr.typ = true →
    p.stopsAtFirst = true ∧ ∃ earlier ∈ innerAttrs data, p.wants earlier.typ = true

end Parser

section Declared
variable {data : Bytes} {attr : Attr}

theorem messageAttrs_eq_inner (data : Bytes) :
    messageAttrs data = innerAttrs data ++ (cutAttr? data).toList :=
  attrs_eq_fitting data (Nat.min_le_right _ _) data.length 20

theorem innerAttrs_within (h : attr ∈ innerAttrs data) :
    20 ≤ attr.start ∧ attr.start + attr.len ≤ declaredEnd data := by
  obtain ⟨hstart,hstop⟩ := fitting_within h
  exact ⟨by omega,Nat.le_trans hstop (Nat.min_le_left _ _)⟩

theorem cutAttr?_across (h : cutAttr? data = some attr) : declaredEnd data < attr.start + attr.len := by
  obtain ⟨hcut,hlen⟩ := Option.filter_eq_some_iff.mp h
  have hacross := cut?_across hcut
  have hlen := of_decide_eq_true hlen
  omega

theorem declared_getD {i : ℕ} (hi : i < 20) : (declared data).getD i 0 = data.getD i 0 := by
  rw [declared,List.getD_eq_getElem?_getD,List.getD_eq_getElem?_getD,
    List.getElem?_take_of_lt (by unfold declaredEnd; omega)]

theorem length_declared : (declared data).length = min (declaredEnd data) data.length :=
  List.length_take

theorem declaredEnd_declared : declaredEnd (declared data) = declaredEnd data := by
  unfold declaredEnd headerLength
  rw [declared_getD (by omega),declared_getD (by omega)]

theorem declared_declared : declared (declared data) = declared data := by
  rw [declared,declaredEnd_declared,declared,List.take_take,Nat.min_self]

theorem messageAttrs_declared (data : Bytes) : messageAttrs (declared data) = innerAttrs data := by
  have hstop : min (declaredEnd data) data.length ≤ data.length := Nat.min_le_right _ _
  have htake : declared data = data.take (min (declaredEnd data) data.length) := by
    rw [declared,← List.take_take,List.take_length]
  have hwalk := attrs_take data hstop (declared data).length 20
  rw [← htake] at hwalk
  change attrs (declared data) (min (declaredEnd (declared data)) (declared data).length) _ 20 = _
  rw [declaredEnd_declared,length_declared,← Nat.min_assoc,Nat.min_self,← length_declared]
  rw [← length_declared] at hwalk
  rw [hwalk,innerAttrs,← length_declared]
  exact fitting_fuel data (by omega) (by rw [length_declared]; omega)

theorem value_declared (h : attr ∈ innerAttrs data) : value (declared data) attr = value data attr := by
  have hstop := (innerAttrs_within h).2
  rw [value,value,declared,List.drop_take,List.take_take,Nat.min_eq_left (by omega)]

/-- The attributes of a datagram are those of its message, and the one across its end. -/
theorem messageFields_eq_declared (data : Bytes) : messageFields data =
    messageFields (declared data) ++ ((cutAttr? data).map (field data)).toList := by
  have hinner : (innerAttrs data).map (field data) = messageFields (declared data) := by
    rw [messageFields,messageAttrs_declared]
    refine List.map_congr_left fun attr hattr => ?_
    rw [field,field,value_declared hattr]
  rw [← hinner,messageFields,messageAttrs_eq_inner,List.map_append]
  cases cutAttr? data <;> rfl

theorem length_declared_lt : (declared data).length < 20 ↔ data.length < 20 := by
  rw [length_declared]
  unfold declaredEnd
  omega

theorem hasCookie_declared : hasCookie (declared data) ↔ hasCookie data := by
  unfold hasCookie
  rw [declared_getD (by omega),declared_getD (by omega),declared_getD (by omega),declared_getD (by omega)]

theorem msgType_declared : msgType (declared data) = msgType data := by
  unfold msgType
  rw [declared_getD (by omega),declared_getD (by omega)]

theorem isDataIndication_declared : isDataIndication (declared data) = isDataIndication data := by
  unfold isDataIndication
  have hlength : decide (20 ≤ (declared data).length) = decide (20 ≤ data.length) := by
    rw [decide_eq_decide,← not_lt,← not_lt,length_declared_lt]
  rw [hlength,declared_getD (by omega),declared_getD (by omega),declared_getD (by omega),
    declared_getD (by omega),declared_getD (by omega),declared_getD (by omega)]

end Declared

section Cut
variable {data : Bytes}

theorem find?_declared {p : UInt16 × Bytes → Bool} (h : ∀ attr, cutAttr? data = some attr →
    p (field data attr) = true → ∃ f ∈ messageFields (declared data), p f = true) :
    (messageFields data).find? p = (messageFields (declared data)).find? p := by
  rw [messageFields_eq_declared,List.find?_append]
  cases hfind : (messageFields (declared data)).find? p with
  | some f => rfl
  | none =>
    rw [Option.none_or]
    cases hcut : cutAttr? data with
    | none => rfl
    | some attr =>
      have hp : p (field data attr) = false := by
        by_contra hp
        obtain ⟨f,hf,hpf⟩ := h attr hcut ((Bool.not_eq_false _).mp hp)
        exact List.find?_eq_none.mp hfind f hf hpf
      change [field data attr].find? p = none
      rw [List.find?_cons,hp]
      rfl

theorem last?_declared {β : Type} {g : UInt16 × Bytes → Option β}
    (h : ∀ attr, cutAttr? data = some attr → g (field data attr) = none) :
    last? g (messageFields data) = last? g (messageFields (declared data)) := by
  rw [messageFields_eq_declared]
  cases hcut : cutAttr? data with
  | none => rw [Option.map_none,Option.toList_none,List.append_nil]
  | some attr =>
    change last? g (messageFields (declared data) ++ [field data attr]) = _
    rw [last?_snoc,h attr hcut,Option.none_or]

theorem lastOf?_declared {typ : UInt16} (h : ∀ attr, cutAttr? data = some attr → attr.typ ≠ typ) :
    lastOf? typ (messageFields data) = lastOf? typ (messageFields (declared data)) :=
  last?_declared fun attr hcut => if_neg (h attr hcut)

end Cut

namespace Parser
variable {p : Parser} {data data' : Bytes}

theorem mem_messageFields_declared {attr : Attr} (h : attr ∈ innerAttrs data) :
    ∃ f ∈ messageFields (declared data), f.1 = attr.typ := by
  refine ⟨field (declared data) attr,?_,rfl⟩
  rw [messageFields,messageAttrs_declared]
  exact List.mem_map_of_mem h

theorem Fits.inside (h : p.Fits data) {attr : Attr} (hattr : attr ∈ p.uses data) :
    20 ≤ attr.start ∧ attr.start + attr.len ≤ declaredEnd data := by
  refine innerAttrs_within ?_
  unfold uses at hattr
  split at hattr
  · cases hattr
  rename_i hreads
  have hreads := not_not.mp hreads
  split at hattr
  · rw [messageAttrs_eq_inner,List.find?_append] at hattr
    cases hfind : (innerAttrs data).find? fun attr => p.wants attr.typ with
    | some first =>
      rw [hfind,Option.some_or,Option.mem_toList] at hattr
      cases hattr
      exact List.mem_of_find?_eq_some hfind
    | none =>
      rw [hfind,Option.none_or,Option.mem_toList] at hattr
      have hwants := List.find?_some hattr
      obtain ⟨-,earlier,hearlier,hp⟩ :=
        h hreads attr (Option.mem_toList.mp (List.mem_of_find?_eq_some hattr)) hwants
      exact absurd hp (List.find?_eq_none.mp hfind earlier hearlier)
  · rename_i hfirst
    obtain ⟨hmem,hwants⟩ := List.mem_filter.mp hattr
    rw [messageAttrs_eq_inner] at hmem
    rcases List.mem_append.mp hmem with hinner | hcut
    · exact hinner
    · exact absurd (h hreads attr (Option.mem_toList.mp hcut) hwants).1 hfirst

theorem Fits.result (h : p.Fits data) : p.parse data = p.parse (declared data) := by
  cases p with
  | stunResponse =>
    change parseStunResponse data = parseStunResponse (declared data)
    rw [parseStunResponse_fields,parseStunResponse_fields]
    simp only [length_declared_lt,hasCookie_declared,msgType_declared]
    by_cases hlen : data.length < 20
    · rw [if_pos hlen,if_pos hlen]
    by_cases hcookie : hasCookie data
    · by_cases htype : msgType data = 0x0101
      · rw [find?_declared fun attr hcut hwants => ?_]
        obtain ⟨-,earlier,hearlier,hp⟩ := h ⟨Nat.not_lt.mp hlen,hcookie,htype⟩ attr hcut hwants
        obtain ⟨f,hf,htyp⟩ := mem_messageFields_declared hearlier
        exact ⟨f,hf,by rw [isAddress,htyp]; exact hp⟩
      · rw [if_pos htype,if_pos htype]
    · rw [if_pos hcookie,if_pos hcookie]
  | turnError401 =>
    have hcut : ∀ attr, cutAttr? data = some attr → ¬ (attr.typ = 0x0014 ∨ attr.typ = 0x0015) := by
      intro attr hcut hwants
      cases (h trivial attr hcut (decide_eq_true hwants)).1
    change parseTurnError401 data = parseTurnError401 (declared data)
    rw [parseTurnError401_fields,parseTurnError401_fields,authOf?,authOf?,
      lastOf?_declared fun attr hc htyp => hcut attr hc (.inl htyp),
      lastOf?_declared fun attr hc htyp => hcut attr hc (.inr htyp)]
    simp only [length_declared_lt]
  | stunAttr targetType =>
    change parseStunAttr data targetType = parseStunAttr (declared data) targetType
    rw [parseStunAttr_fields,parseStunAttr_fields,firstOf?,firstOf?,find?_declared fun attr hcut hwants => ?_]
    obtain ⟨-,earlier,hearlier,hp⟩ := h trivial attr hcut hwants
    obtain ⟨f,hf,htyp⟩ := mem_messageFields_declared hearlier
    exact ⟨f,hf,by rw [htyp]; exact hp⟩
  | turnData =>
    change parseTurnData data = parseTurnData (declared data)
    rw [parseTurnData_fields,parseTurnData_fields,isDataIndication_declared]
    by_cases hheader : isDataIndication data = true
    · have hcut : ∀ attr, cutAttr? data = some attr → ¬ (attr.typ = 0x0012 ∨ attr.typ = 0x0013) := by
        intro attr hcut hwants
        cases (h hheader attr hcut (decide_eq_true hwants)).1
      rw [relayedOf?,relayedOf?,last?_declared fun attr hc => if_neg fun htyp => hcut attr hc (.inl htyp),
        lastOf?_declared fun attr hc htyp => hcut attr hc (.inr htyp)]
    · rw [if_neg hheader,if_neg hheader]

theorem Bounded.fits (h : p.Bounded data) : p.Fits data := by
  intro hreads attr hcut hwants
  have hmem : attr ∈ messageAttrs data := by
    rw [messageAttrs_eq_inner,hcut]
    exact List.mem_append_right _ List.mem_cons_self
  have hunused : attr ∉ p.uses data := fun huses =>
    absurd (h.inside attr huses).2 (Nat.not_le.mpr (cutAttr?_across hcut))
  rw [uses,if_neg (not_not.mpr hreads)] at hunused
  by_cases hfirst : p.stopsAtFirst = true
  · refine ⟨hfirst,?_⟩
    by_contra hnone
    have hinner : (innerAttrs data).find? (fun attr => p.wants attr.typ) = none :=
      List.find?_eq_none.mpr fun earlier hearlier hp => hnone ⟨earlier,hearlier,hp⟩
    rw [if_pos hfirst,messageAttrs_eq_inner,List.find?_append,hinner,hcut] at hunused
    simp [hwants] at hunused
  · rw [if_neg hfirst] at hunused
    exact absurd (List.mem_filter.mpr ⟨hmem,hwants⟩) hunused

/-- A parser keeps within the message exactly if no value that it looks for is cut by the declared end; and
then datagrams with the same message give the same result. -/
theorem bounded_iff (p : Parser) (data : Bytes) : (p.Bounded data ↔ p.Fits data) ∧
    ∀ data', declared data' = declared data → p.Fits data → p.Fits data' → p.parse data' = p.parse data := by
  refine ⟨⟨Bounded.fits,fun h => ⟨fun attr hattr => h.inside hattr,h.result⟩⟩,?_⟩
  intro data' hsame h h'
  rw [h'.result,hsame,← h.result]

end Parser

/-- A Data indication of 192.168.1.5:5000 whose length field ends in the middle of its DATA. -/
def cutIndication : Bytes :=
  stunHeader 0x0017 18 (genTxnId 5) ++
    appendAttr (appendAttr [] 0x0012 [0,1,0x32,0x9A,0xE1,0xBA,0xA5,0x47]) 0x0013 [1,2,3,4]

theorem parse_cutIndication :
    Parser.turnData.parse cutIndication ≠ Parser.turnData.parse (declared cutIndication) := by
  change parseTurnData cutIndication ≠ parseTurnData (declared cutIndication)
  decide

/-- The bytes behind the end of the message are relayed as data, and without them nothing is. -/
theorem trailing_bytes_relayed : ∃ p data data', declared data' = declared data ∧
    Parser.parse p data ≠ p.parse data' ∧ ¬ Parser.Bounded p data :=
  ⟨.turnData,cutIndication,declared cutIndication,declared_declared,parse_cutIndication,
    fun h => parse_cutIndication h.result⟩

end Turn
end AnyKvm
