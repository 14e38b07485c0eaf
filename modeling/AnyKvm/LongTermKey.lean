import AnyKvm.MessageIntegrity

/-! The key of the long-term credentials, against the realm that is sent along with it.
The realm goes into the REALM attribute as it came, and into the key as a text: what is no UTF-8 is left out of
the key. -/
namespace AnyKvm
namespace Turn

open Outcome Bytes TlvWalk

theorem toList_loop (bytes : ByteArray) (i : ℕ) (front : List UInt8) :
    ByteArray.toList.loop bytes i front = front.reverse ++ bytes.data.toList.drop i := by
  fun_induction ByteArray.toList.loop bytes i front with
  | case1 i front h ih =>
    have hi : i < bytes.data.toList.length := h
    have hget : bytes.get! i = bytes.data.toList[i] := getElem!_pos bytes.data i h
    rw [ih,List.drop_eq_getElem_cons hi,hget,List.reverse_cons,List.append_assoc,List.singleton_append]
  | case2 i front h =>
    rw [List.drop_eq_nil_of_le (Nat.le_of_not_lt h),List.append_nil]

theorem toList_eq (bytes : ByteArray) : bytes.toList = bytes.data.toList := by
  rw [ByteArray.toList,toList_loop,List.reverse_nil,List.nil_append,List.drop_zero]

theorem toUTF8_append (s t : String) : (s ++ t).toUTF8.toList = s.toUTF8.toList ++ t.toUTF8.toList := by
  change (s.toByteArray ++ t.toByteArray).toList = s.toByteArray.toList ++ t.toByteArray.toList
  rw [toList_eq,toList_eq,toList_eq,ByteArray.toList_data_append]

theorem empty_bytes : "".toUTF8.toList = [] := toList_eq _

theorem colon_bytes : ":".toUTF8.toList = [0x3A] := toList_eq _

def IsText (bytes : Bytes) : Prop := (Stun.text? bytes).isSome = true

instance (bytes : Bytes) : Decidable (IsText bytes) := inferInstanceAs (Decidable (_ = true))

theorem text?_bytes {bytes : Bytes} {s : String} (h : Stun.text? bytes = some s) : s.toUTF8.toList = bytes := by
  unfold Stun.text? String.fromUTF8? at h
  split at h
  · cases h
    exact toList_eq _
  · cases h

theorem isText_nil : IsText [] := by decide

section Key
variable (username password : String)

/-- What is hashed for the key. -/
def keyInput (realm : Bytes) : Bytes := md5Key id username realm password

/-- username ":" realm ":" password, with the realm of the REALM attribute. -/
def longTermInput (realm : Bytes) : Bytes :=
  username.toUTF8.toList ++ [0x3A] ++ realm ++ [0x3A] ++ password.toUTF8.toList

/-- Whatever the hash and the HMAC are: `append_auth` sends the realm as it came in the REALM attribute, and signs
with the hash of `input`. -/
def SignsWith (realm input : Bytes) : Prop :=
  ∀ (hash : Bytes → Bytes) (mac : Bytes → Bytes → Bytes) (fields : List (UInt16 × Bytes)) (msgType : UInt16)
    (txn nonce : Bytes) (turnAddr : SocketAddr),
    appendAuth hash mac (encodedAll fields) (stunHeader msgType 0 txn) ⟨turnAddr,realm,nonce,username,password⟩ =
      let signed := fields ++ [(0x0006,username.toUTF8.toList),(0x0014,realm),(0x0015,nonce)]
      encodedAll (signed ++ [(0x0008,mac (hash input)
        (stunHeader msgType (UInt16.ofNat ((encodedAll signed).length + 24)) txn ++ encodedAll signed))])

/-- For two realms: requests are signed with the key of the realm that they send, and no key serves both where they
differ. -/
structure KeysFaithful (realm realm' : Bytes) : Prop where
  exact_left : SignsWith username password realm (longTermInput username password realm)
  exact_right : SignsWith username password realm' (longTermInput username password realm')
  apart : realm ≠ realm' → ∀ input, SignsWith username password realm input →
    ¬ SignsWith username password realm' input

variable {username password} {realm realm' : Bytes}

theorem keyInput_eq : keyInput username password realm =
    longTermInput username password (((Stun.text? realm).getD "").toUTF8.toList) := by
  change (toString username ++ ":" ++ toString ((Stun.text? realm).getD "") ++ ":" ++ toString password).toUTF8.toList = _
  rw [toUTF8_append,toUTF8_append,toUTF8_append,toUTF8_append,colon_bytes]
  rfl

theorem longTermInput_inj : longTermInput username password realm = longTermInput username password realm' ↔
    realm = realm' := by
  unfold longTermInput
  rw [List.append_left_inj,List.append_left_inj,List.append_right_inj]

theorem keyInput_exact_iff :
    keyInput username password realm = longTermInput username password realm ↔ IsText realm := by
  rw [keyInput_eq,longTermInput_inj,IsText]
  cases h : Stun.text? realm with
  | some s => exact iff_of_true (text?_bytes h) rfl
  | none =>
    refine iff_of_false (fun hempty => ?_) Bool.false_ne_true
    have hnil : realm = [] := hempty.symm.trans empty_bytes
    have hsome : (Stun.text? realm).isSome = true := hnil ▸ isText_nil
    rw [h] at hsome
    cases hsome

/-- The key is the hash of `keyInput`, which some hash tells from every other input. -/
theorem signsWith_iff {input : Bytes} :
    SignsWith username password realm input ↔ input = keyInput username password realm := by
  constructor
  · intro h
    by_contra hne
    let hash : Bytes → Bytes := fun x => if x = input then [1] else []
    have hsigned := h hash (fun key _ => key) [] 0 [] [] ⟨.v4 0,0⟩
    rw [appendAuth_eq,encodedAll_append] at hsigned
    have hother : md5Key hash username realm password = [] := if_neg (Ne.symm hne)
    have hinput : hash input = [1] := if_pos rfl
    have hlast := List.append_cancel_left (hsigned.trans encodedAll_append)
    rw [hother,hinput] at hlast
    exact absurd hlast (by decide)
  · rintro rfl hash mac fields msgType txn nonce turnAddr
    exact appendAuth_eq fields msgType txn _

theorem keys_faithful_iff : KeysFaithful username password realm realm' ↔ IsText realm ∧ IsText realm' := by
  constructor
  · intro h
    exact ⟨keyInput_exact_iff.mp (signsWith_iff.mp h.exact_left).symm,
      keyInput_exact_iff.mp (signsWith_iff.mp h.exact_right).symm⟩
  · rintro ⟨hleft,hright⟩
    refine ⟨signsWith_iff.mpr (keyInput_exact_iff.mpr hleft).symm,
      signsWith_iff.mpr (keyInput_exact_iff.mpr hright).symm,fun hne input h h' => hne ?_⟩
    have hsame := (signsWith_iff.mp h).symm.trans (signsWith_iff.mp h')
    rw [keyInput_exact_iff.mpr hleft,keyInput_exact_iff.mpr hright] at hsame
    exact longTermInput_inj.mp hsame

end Key

/-- A reply whose REALM is the single byte `b`. -/
def oneByteRealm (b : UInt8) : Bytes :=
  [0x01,0x13,0x00,0x0C] ++ u32ToBeBytes stunMagic ++ List.replicate 12 0 ++
    [0x00,0x14,0x00,0x01,b,0,0,0,0x00,0x15,0x00,0x00]

theorem realm_dropped :
    parseTurnError401 (oneByteRealm 0xFE) = .ok ([0xFE],[]) ∧
    parseTurnError401 (oneByteRealm 0xFF) = .ok ([0xFF],[]) ∧
    SignsWith "user" "pass" [0xFE] (longTermInput "user" "pass" []) ∧
    SignsWith "user" "pass" [0xFF] (longTermInput "user" "pass" []) ∧
    ¬ KeysFaithful "user" "pass" [0xFE] [0xFF] := by
  have hsigns : ∀ b : UInt8, Stun.text? [b] = none → SignsWith "user" "pass" [b] (longTermInput "user" "pass" []) := by
    intro b hb
    rw [signsWith_iff,keyInput_eq,hb]
    exact congrArg _ empty_bytes.symm
  have hleft := hsigns 0xFE (by decide)
  have hright := hsigns 0xFF (by decide)
  exact ⟨by decide,by decide,hleft,hright,fun h => h.apart (by decide) _ hleft hright⟩

end Turn
end AnyKvm
