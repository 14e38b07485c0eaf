import AnyKvm.AttrLayout
import AnyKvm.Digests

/-! MESSAGE-INTEGRITY of the requests with credentials.
`append_auth` hashes a header of its own, with a length that counts the attribute it is about to
append; the header that is sent is made anew. -/
namespace AnyKvm
namespace Turn

open Outcome Bytes TlvWalk

/-- The length that is written into the finished message once more. -/
def patchLength (msg : Bytes) : Bytes :=
  msg.take 2 ++ u16ToBeBytes (UInt16.ofNat (msg.length - 20)) ++ msg.drop 4

/-- What a server that knows the key checks (RFC 5389): the length field covers the
attributes, and the last attribute holds the HMAC of all that is before it. -/
def verifies (key msg : Bytes) : Bool :=
  headerLength msg + 20 = msg.length &&
    match (messageAttrs msg).getLast? with
    | some attr => attr.typ = 0x0008 && attr.len = 20 && attr.start + attr.len = msg.length &&
        value msg attr = hmacSha1 key (msg.take (attr.start - 4))
    | none => false

def credentials (ts : TurnState) : List (UInt16 × Bytes) :=
  [(0x0006,ts.username.toUTF8.toList),(0x0014,ts.realm),(0x0015,ts.nonce)]

def authRequests (ts : TurnState) (peer : UInt32) (nanos : ℕ) : List Bytes :=
  [allocateRequest₂ md5Hash hmacSha1 ts nanos,createPermissionRequest md5Hash hmacSha1 ts (.v4 peer) nanos,
    refreshRequest md5Hash hmacSha1 ts nanos]

theorem patchLength_request (msgType : UInt16) {txn : Bytes} (htxn : txn.length = 12) (attrs : Bytes) :
    patchLength (request msgType txn attrs) = request msgType txn attrs := by
  have hlength : (request msgType txn attrs).length - 20 = attrs.length := by
    rw [request,List.length_append,length_stunHeader _ _ htxn,Nat.add_sub_cancel_left]
  rw [patchLength,hlength]
  rfl

/-- The attributes behind a request's own ones; the length under the HMAC counts the HMAC. -/
theorem appendAuth_eq {hash : Bytes → Bytes} {mac : Bytes → Bytes → Bytes} (fields : List (UInt16 × Bytes))
    (msgType : UInt16) (txn : Bytes) (ts : TurnState) :
    appendAuth hash mac (encodedAll fields) (stunHeader msgType 0 txn) ts =
      encodedAll (fields ++ credentials ts ++
        [(0x0008,mac (md5Key hash ts.username ts.realm ts.password)
          (stunHeader msgType (UInt16.ofNat ((encodedAll (fields ++ credentials ts)).length + 24)) txn ++
            encodedAll (fields ++ credentials ts)))]) := by
  have hbuf : appendAttr (appendAttr (appendAttr (encodedAll fields) 0x0006 ts.username.toUTF8.toList)
      0x0014 ts.realm) 0x0015 ts.nonce = encodedAll (fields ++ credentials ts) := by
    rw [appendAttr_encodedAll,appendAttr_encodedAll,appendAttr_encodedAll,List.append_assoc,List.append_assoc]
    rfl
  rw [appendAuth,hbuf,appendAttr_encodedAll,UInt16.ofNat_add]
  rfl

/-- A message whose last attribute is the HMAC of its header and of the attributes before it. -/
theorem verifies_last (key : Bytes) (msgType : UInt16) {txn : Bytes}
    (htxn : txn.length = 12) (fields : List (UInt16 × Bytes)) {val : Bytes} (hlen : val.length = 20)
    (hval : val = hmacSha1 key
      (stunHeader msgType (UInt16.ofNat ((encodedAll fields).length + 24)) txn ++ encodedAll fields))
    (hsmall : (encodedAll fields).length + 24 < 65536) :
    verifies key (request msgType txn (encodedAll (fields ++ [(0x0008,val)]))) = true := by
  have hlast : (encoded (0x0008,val)).length = 24 := by
    rw [length_encoded,hlen]
    rfl
  have hall : encodedAll (fields ++ [(0x0008,val)]) = encodedAll fields ++ encoded (0x0008,val) := by
    rw [encodedAll_append,encodedAll_cons,encodedAll_nil,List.append_nil]
  have hlength : (encodedAll (fields ++ [(0x0008,val)])).length = (encodedAll fields).length + 24 := by
    rw [hall,List.length_append,hlast]
  have hsmall' : (encodedAll (fields ++ [(0x0008,val)])).length < 65536 := by rwa [hlength]
  have hheader := length_stunHeader msgType (UInt16.ofNat ((encodedAll fields).length + 24)) htxn
  -- the message, cut where the last attribute starts
  have hmsg : request msgType txn (encodedAll (fields ++ [(0x0008,val)])) =
      (stunHeader msgType (UInt16.ofNat ((encodedAll fields).length + 24)) txn ++ encodedAll fields) ++
        (encoded (0x0008,val) ++ []) := by
    rw [request,hlength,hall,List.append_nil,List.append_assoc]
  have hbefore : (stunHeader msgType (UInt16.ofNat ((encodedAll fields).length + 24)) txn ++
      encodedAll fields).length = 20 + (encodedAll fields).length := by
    rw [List.length_append,hheader]
  have hattr : (messageAttrs (request msgType txn (encodedAll (fields ++ [(0x0008,val)])))).getLast? =
      some ⟨0x0008,20 + (encodedAll fields).length + 4,20⟩ := by
    rw [messageAttrs_request msgType htxn hsmall',layout_append,layout,layout,hlen,List.getLast?_concat]
  have hvalue := value_encoded 0x0008 val
    (stunHeader msgType (UInt16.ofNat ((encodedAll fields).length + 24)) txn ++ encodedAll fields) []
  rw [hbefore,hlen,← hmsg] at hvalue
  have htake : (request msgType txn (encodedAll (fields ++ [(0x0008,val)]))).take
      (20 + (encodedAll fields).length + 4 - 4) =
        stunHeader msgType (UInt16.ofNat ((encodedAll fields).length + 24)) txn ++ encodedAll fields := by
    rw [Nat.add_sub_cancel,hmsg]
    exact List.take_left' hbefore
  have hend : 20 + (encodedAll fields).length + 4 + 20 =
      (request msgType txn (encodedAll (fields ++ [(0x0008,val)]))).length := by
    rw [hmsg,List.append_nil,List.length_append,hbefore,hlast]
  rw [verifies,hattr,headerLength_request msgType htxn hsmall']
  simp only [decide_true,Bool.true_and,Bool.and_eq_true,decide_eq_true_eq]
  exact ⟨hend,by rw [hvalue,htake,← hval]⟩

theorem verifies_authenticated (fields : List (UInt16 × Bytes)) (msgType : UInt16) {txn : Bytes}
    (htxn : txn.length = 12) (ts : TurnState) {msg : Bytes}
    (hmsg : msg = request msgType txn
      (appendAuth md5Hash hmacSha1 (encodedAll fields) (stunHeader msgType 0 txn) ts))
    (hsize : msg.length ≤ 20 + 65535) :
    verifies (md5Key md5Hash ts.username ts.realm ts.password) (patchLength msg) = true := by
  rw [hmsg,patchLength_request msgType htxn,appendAuth_eq]
  rw [hmsg,appendAuth_eq,request,List.length_append,length_stunHeader _ _ htxn,encodedAll_append,
    List.length_append,encodedAll_cons,encodedAll_nil,List.append_nil,length_encoded,length_hmacSha1] at hsize
  refine verifies_last _ msgType htxn _ (length_hmacSha1 _ _) rfl ?_
  unfold align4 at hsize
  omega

/-- The requests with credentials are sent so that the server can verify them. -/
theorem integrity_verifiable (ts : TurnState) (peer : UInt32) (nanos : ℕ) {msg : Bytes}
    (hmsg : msg ∈ authRequests ts peer nanos) (hsize : msg.length ≤ 20 + 65535) :
    verifies (md5Key md5Hash ts.username ts.realm ts.password) (patchLength msg) = true := by
  simp only [authRequests,List.mem_cons,List.not_mem_nil,or_false] at hmsg
  have htxn := length_genTxnId nanos
  have hone : ∀ typ val, appendAttr [] typ val = encodedAll [(typ,val)] := appendAttr_encodedAll []
  rcases hmsg with hmsg | hmsg | hmsg
  · rw [allocateRequest₂,requestedTransport,hone] at hmsg
    exact verifies_authenticated _ 0x0003 htxn ts hmsg hsize
  · rw [createPermissionRequest,appendPeer,hone] at hmsg
    exact verifies_authenticated _ 0x0008 htxn ts hmsg hsize
  · rw [refreshRequest,hone] at hmsg
    exact verifies_authenticated _ 0x0004 htxn ts hmsg hsize

theorem integrity_verifiable_refresh :
    verifies (md5Key md5Hash "kvmuser" [97] "anykvm2026")
      (patchLength (refreshRequest md5Hash hmacSha1 ⟨⟨.v4 0x0A000001,3478⟩,[97],[98,99],"kvmuser","anykvm2026"⟩ 0)) =
        true :=
  integrity_verifiable ⟨⟨.v4 0x0A000001,3478⟩,[97],[98,99],"kvmuser","anykvm2026"⟩ 0x0A000002 0
    (by simp [authRequests]) (by decide +kernel)

end Turn
end AnyKvm
