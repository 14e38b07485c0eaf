import AnyKvm.MessageFields

/-! The attribute format as a whole: what `stun_header` and `append_attr` write for any list of attributes,
and what `parse_stun_attr`, `parse_turn_error_401` and `parse_turn_data` read out of it. -/
namespace AnyKvm
namespace Turn

open Outcome Bytes TlvWalk

def appendAll (fields : List (UInt16 × Bytes)) : Bytes :=
  fields.foldl (fun buf f => appendAttr buf f.1 f.2) []

theorem foldl_appendAttr (buf : Bytes) (fields : List (UInt16 × Bytes)) :
    fields.foldl (fun buf f => appendAttr buf f.1 f.2) buf = buf ++ encodedAll fields := by
  induction fields generalizing buf with
  | nil => rw [List.foldl_nil,encodedAll_nil,List.append_nil]
  | cons f fields ih =>
    rw [List.foldl_cons,ih,appendAttr_eq,encodedAll_cons,List.append_assoc]

theorem appendAll_eq (fields : List (UInt16 × Bytes)) : appendAll fields = encodedAll fields :=
  foldl_appendAttr [] fields

/-- The codec on the whole format: the first attribute of a type, the last REALM and NONCE, and the last
readable peer address with the last DATA come back as they have been appended. -/
theorem attr_codec (msgType : UInt16) {txn : Bytes} (htxn : txn.length = 12)
    (fields : List (UInt16 × Bytes)) (hsize : (appendAll fields).length ≤ 65535) :
    (∀ targetType, parseStunAttr (request msgType txn (appendAll fields)) targetType =
      .ok (firstOf? targetType fields)) ∧
    parseTurnError401 (request msgType txn (appendAll fields)) =
      (authOf? fields).elim (.err "missing REALM or NONCE in 401") .ok ∧
    (msgType = 0x0017 → parseTurnData (request msgType txn (appendAll fields)) =
      .ok (relayedOf? fields)) := by
  rw [appendAll_eq] at hsize ⊢
  have hfields := messageFields_request msgType htxn (Nat.lt_succ_of_le hsize)
  have hlength : ¬ (request msgType txn (encodedAll fields)).length < 20 := by
    rw [request,List.length_append,length_stunHeader _ _ htxn]
    omega
  refine ⟨fun targetType => ?_,?_,?_⟩
  · rw [parseStunAttr_fields,hfields]
  · rw [parseTurnError401_fields,if_neg hlength,hfields]
  · rintro rfl
    rw [parseTurnData_fields,hfields,if_pos (isDataIndication_request htxn _)]

/-- Attributes with lengths of all residues, two of them with an address and an unreadable one behind. -/
def sampleFields : List (UInt16 × Bytes) :=
  [(0x0013,[1,2,3]),(0x0012,[0,1]),(0x0012,[0,1,0,0,0,0,0,0]),(0x0013,[]),(0x0012,[0,2,0,0,0,0,0,0,0]),(0x0014,[7])]

theorem attr_codec_sample :
    (∀ targetType, parseStunAttr (request 0x0017 (genTxnId 5) (appendAll sampleFields)) targetType =
      .ok (firstOf? targetType sampleFields)) ∧
    parseTurnError401 (request 0x0017 (genTxnId 5) (appendAll sampleFields)) =
      .err "missing REALM or NONCE in 401" ∧
    ((0x0017 : UInt16) = 0x0017 → parseTurnData (request 0x0017 (genTxnId 5) (appendAll sampleFields)) =
      .ok (some (⟨.v4 stunMagic,(stunMagic >>> 16).toUInt16⟩,[]))) :=
  attr_codec 0x0017 (length_genTxnId 5) sampleFields (by decide)

end Turn
end AnyKvm
