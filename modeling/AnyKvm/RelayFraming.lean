import AnyKvm.MessageFields

/-! Data on its way through the TURN server: what `build_turn_send_indication` writes, and what
`parse_turn_data` reads when the server has made a Data indication of it. -/
namespace AnyKvm
namespace Turn

open Outcome Bytes TlvWalk

/-- The message of a relaying server: the type alone is another one. -/
def asDataIndication (msg : Bytes) : Bytes := u16ToBeBytes 0x0017 ++ msg.drop 2

/-- The value of XOR-PEER-ADDRESS. -/
def xorPeer (bits : UInt32) (port : UInt16) : Bytes :=
  ([0,1] : Bytes) ++ u16ToBeBytes (port ^^^ (stunMagic >>> 16).toUInt16) ++ u32ToBeBytes (bits ^^^ stunMagic)

def indicationFields (bits : UInt32) (port : UInt16) (data : Bytes) : List (UInt16 × Bytes) :=
  [(0x0012,xorPeer bits port),(0x0013,data)]

variable {bits : UInt32} {port : UInt16} {data : Bytes}

theorem asDataIndication_build (bits : UInt32) (port : UInt16) (data : Bytes) (nanos : ℕ) :
    asDataIndication (buildTurnSendIndication ⟨.v4 bits,port⟩ data nanos) =
      request 0x0017 (genTxnId nanos) (encodedAll (indicationFields bits port data)) := by
  have hattrs : appendAttr (appendPeer [] (.v4 bits) port) 0x0013 data =
      encodedAll (indicationFields bits port data) := by
    change appendAttr (appendAttr (encodedAll []) 0x0012 (xorPeer bits port)) 0x0013 data = _
    rw [appendAttr_encodedAll,appendAttr_encodedAll]
    rfl
  rw [buildTurnSendIndication,hattrs]
  rfl

theorem length_indicationFields (bits : UInt32) (port : UInt16) (data : Bytes) :
    (encodedAll (indicationFields bits port data)).length = 16 + align4 data.length := by
  rw [indicationFields,encodedAll_cons,encodedAll_cons,encodedAll_nil,List.append_nil,List.length_append,
    length_encoded,length_encoded]
  simp only [xorPeer,u16ToBeBytes,u32ToBeBytes,align4,List.length_append,List.length_cons,List.length_nil]
  omega

/-- Masking the address and the port twice gives them back. -/
theorem xorMapped?_xorPeer (bits : UInt32) (port : UInt16) :
    xorMapped? (xorPeer bits port) = some ⟨.v4 bits,port⟩ := by
  have hbits : u32FromBeBytes ((bits ^^^ stunMagic) >>> 24).toUInt8 ((bits ^^^ stunMagic) >>> 16).toUInt8
      ((bits ^^^ stunMagic) >>> 8).toUInt8 (bits ^^^ stunMagic).toUInt8 ^^^ stunMagic = bits := by
    rw [u32FromBeBytes_toBe,UInt32.xor_assoc,UInt32.xor_self,UInt32.xor_zero]
  have hport : u16FromBeBytes ((port ^^^ (stunMagic >>> 16).toUInt16) >>> 8).toUInt8
      (port ^^^ (stunMagic >>> 16).toUInt16).toUInt8 ^^^ (stunMagic >>> 16).toUInt16 = port := by
    rw [u16FromBeBytes_toBe,UInt16.xor_assoc,UInt16.xor_self,UInt16.xor_zero]
  exact congrArg₂ (fun ip port => some (SocketAddr.mk (.v4 ip) port)) hbits hport

theorem layout_indicationFields (bits : UInt32) (port : UInt16) (data : Bytes) :
    layout 20 (indicationFields bits port data) = [⟨0x0012,24,8⟩,⟨0x0013,36,data.length⟩] := by
  simp [indicationFields,layout,xorPeer,u16ToBeBytes,u32ToBeBytes,align4]

/-- Where the two attributes stand, with the lengths that their length fields tell. -/
theorem messageAttrs_indication (nanos : ℕ)
    (hsmall : (encodedAll (indicationFields bits port data)).length < 65536) :
    messageAttrs (request 0x0017 (genTxnId nanos) (encodedAll (indicationFields bits port data))) =
      [⟨0x0012,24,8⟩,⟨0x0013,36,data.length⟩] := by
  rw [messageAttrs_request 0x0017 (length_genTxnId nanos) hsmall,layout_indicationFields]

/-- The relayed message is read as the peer and the payload that were sent, and each of its length fields
tells the length of what it stands for. -/
theorem relayed_round_trip (bits : UInt32) (port : UInt16) (data : Bytes) (nanos : ℕ)
    (hdata : data.length ≤ 65507) :
    parseTurnData (asDataIndication (buildTurnSendIndication ⟨.v4 bits,port⟩ data nanos)) =
        .ok (some (⟨.v4 bits,port⟩,data)) ∧
      headerLength (asDataIndication (buildTurnSendIndication ⟨.v4 bits,port⟩ data nanos)) + 20 =
        (asDataIndication (buildTurnSendIndication ⟨.v4 bits,port⟩ data nanos)).length ∧
      messageAttrs (asDataIndication (buildTurnSendIndication ⟨.v4 bits,port⟩ data nanos)) =
        [⟨0x0012,24,8⟩,⟨0x0013,36,data.length⟩] := by
  have hsmall : (encodedAll (indicationFields bits port data)).length < 65536 := by
    rw [length_indicationFields,align4]
    omega
  rw [asDataIndication_build]
  refine ⟨?_,?_,messageAttrs_indication nanos hsmall⟩
  · have hpeer : peerOf? (0x0012,xorPeer bits port) = some ⟨.v4 bits,port⟩ := xorMapped?_xorPeer bits port
    have hother : peerOf? (0x0013,data) = none := rfl
    rw [parseTurnData_fields,messageFields_request 0x0017 (length_genTxnId nanos) hsmall,
      if_pos (isDataIndication_request (length_genTxnId nanos) _)]
    simp [indicationFields,relayedOf?,last?,lastOf?,hpeer,hother]
  · exact headerLength_request 0x0017 (length_genTxnId nanos) hsmall

theorem relayed_round_trip_hello :
    parseTurnData (asDataIndication (buildTurnSendIndication ⟨.v4 0xC0A80001,5000⟩ [104,101,108,108,111] 0)) =
        .ok (some (⟨.v4 0xC0A80001,5000⟩,[104,101,108,108,111])) ∧
      headerLength (asDataIndication (buildTurnSendIndication ⟨.v4 0xC0A80001,5000⟩ [104,101,108,108,111] 0)) + 20 =
        (asDataIndication (buildTurnSendIndication ⟨.v4 0xC0A80001,5000⟩ [104,101,108,108,111] 0)).length ∧
      messageAttrs (asDataIndication (buildTurnSendIndication ⟨.v4 0xC0A80001,5000⟩ [104,101,108,108,111] 0)) =
        [⟨0x0012,24,8⟩,⟨0x0013,36,5⟩] :=
  relayed_round_trip 0xC0A80001 5000 [104,101,108,108,111] 0 (by decide)

end Turn
end AnyKvm
