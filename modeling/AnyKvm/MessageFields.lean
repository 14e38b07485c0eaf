import AnyKvm.AttrLayout
import AnyKvm.StunAnswers

/-! A message as the list of its attributes, each a type with its value. Every parser of `webrtc.rs` that
walks over a message is a function of this list, and a message that `append_attr` has filled has the list
that was appended. -/
namespace AnyKvm
namespace Turn

open Outcome Bytes TlvWalk

def field (data : Bytes) (attr : Attr) : UInt16 × Bytes := (attr.typ,value data attr)

/-- The attributes that a walk over a message meets. -/
def messageFields (data : Bytes) : List (UInt16 × Bytes) := (messageAttrs data).map (field data)

def firstOf? (typ : UInt16) (fields : List (UInt16 × Bytes)) : Option Bytes :=
  (fields.find? fun f => f.1 = typ).map Prod.snd

def lastOf? (typ : UInt16) (fields : List (UInt16 × Bytes)) : Option Bytes :=
  last? (fun f => if f.1 = typ then some f.2 else none) fields

/-- The IPv4 address in a readable XOR-PEER-ADDRESS. -/
def peerOf? (f : UInt16 × Bytes) : Option SocketAddr := if f.1 = 0x0012 then xorMapped? f.2 else none

/-- The last REALM and the last NONCE, if there are both. -/
def authOf? (fields : List (UInt16 × Bytes)) : Option (Bytes × Bytes) :=
  (lastOf? 0x0014 fields).bind fun realm => (lastOf? 0x0015 fields).map fun nonce => (realm,nonce)

/-- The last readable peer address and the last DATA, if there are both. -/
def relayedOf? (fields : List (UInt16 × Bytes)) : Option (SocketAddr × Bytes) :=
  (last? peerOf? fields).bind fun addr => (lastOf? 0x0013 fields).map fun val => (addr,val)

def isAddress (f : UInt16 × Bytes) : Bool := f.1 = 0x0020 ∨ f.1 = 0x0001

/-- What `parse_stun_response` makes of an address attribute. -/
def parseAddress (f : UInt16 × Bytes) : Outcome String SocketAddr :=
  if f.1 = 0x0020 then parseXorMapped f.2 else parseMapped f.2

theorem last?_map {α β γ : Type} (f : β → Option γ) (g : α → β) (as : List α) :
    last? f (as.map g) = last? (fun a => f (g a)) as := by
  rw [last?,last?,List.filterMap_map]
  rfl

theorem messageAttrs_short {data : Bytes} (h : data.length < 24) : messageAttrs data = [] :=
  attrs_behind (by omega)

section Parsers
variable (data : Bytes)

theorem find?_messageFields (p : UInt16 × Bytes → Bool) : (messageFields data).find? p =
    ((messageAttrs data).find? fun attr => p (field data attr)).map (field data) := by
  rw [messageFields,List.find?_map]
  rfl

theorem parseStunAttr_fields (targetType : UInt16) :
    parseStunAttr data targetType = .ok (firstOf? targetType (messageFields data)) := by
  rw [parseStunAttr_eq,firstOf?,find?_messageFields,Option.map_map]
  by_cases hlen : 20 ≤ data.length
  · rw [if_pos hlen]
    rfl
  · rw [if_neg hlen,messageAttrs_short (by omega)]
    rfl

theorem lastValue?_fields (typ : UInt16) : lastValue? data typ = lastOf? typ (messageFields data) := by
  rw [lastOf?,messageFields,last?_map]
  rfl

theorem parseTurnError401_fields : parseTurnError401 data =
    if data.length < 20 then .err "response too short"
    else (authOf? (messageFields data)).elim (.err "missing REALM or NONCE in 401") .ok := by
  rw [parseTurnError401_eq,lastValue?_fields,lastValue?_fields,authOf?]
  cases lastOf? 0x0014 (messageFields data) with
  | none => rfl
  | some realm => cases lastOf? 0x0015 (messageFields data) <;> rfl

theorem parseStunResponse_fields : parseStunResponse data =
    if data.length < 20 then .err "STUN response too short"
    else if ¬ hasCookie data then .err "invalid STUN magic cookie"
    else if msgType data ≠ 0x0101 then
      .err s!"STUN msg type {Stun.hex4 (msgType data)}, expected 0x0101"
    else ((messageFields data).find? isAddress).elim (.err "no MAPPED-ADDRESS in STUN response") parseAddress := by
  rw [parseStunResponse_eq,find?_messageFields]
  change _ = if _ then _ else if _ then _ else if _ then _ else
    (((messageAttrs data).find? isMapped).map (field data)).elim _ _
  cases (messageAttrs data).find? isMapped <;> rfl

/-- The DATA that the loop of `parse_turn_data` has kept, as a value. -/
theorem last?_data (as : List Attr) : (last? data? as).map (value data) =
    last? (fun attr => if attr.typ = 0x0013 then some (value data attr) else none) as := by
  rw [last?,last?,← List.getLast?_map,List.map_filterMap]
  congr 2
  funext attr
  unfold data?
  split <;> rfl

theorem parseTurnData_fields : parseTurnData data =
    .ok (if isDataIndication data then relayedOf? (messageFields data) else none) := by
  have hpeer : last? peerOf? (messageFields data) = last? (peer? data) (messageAttrs data) := by
    rw [messageFields,last?_map]
    rfl
  have hdata : lastOf? 0x0013 (messageFields data) =
      (last? data? (messageAttrs data)).map (value data) := by
    rw [last?_data,lastOf?,messageFields,last?_map]
    rfl
  rw [parseTurnData_eq,relayed?,relayedOf?,hpeer,hdata]
  cases last? (peer? data) (messageAttrs data) with
  | none => rfl
  | some addr => cases last? data? (messageAttrs data) <;> rfl

end Parsers

theorem messageFields_request (msgType : UInt16) {txn : Bytes} (htxn : txn.length = 12)
    {fields : List (UInt16 × Bytes)} (hsmall : (encodedAll fields).length < 65536) :
    messageFields (request msgType txn (encodedAll fields)) = fields := by
  rw [messageFields,messageAttrs_request msgType htxn hsmall,
    ← length_stunHeader msgType (UInt16.ofNat (encodedAll fields).length) htxn]
  exact map_value_layout _ fields

end Turn
end AnyKvm
