import AnyKvm.MessageFields

/-! Which address `parse_stun_response` takes from a Binding response with several of them.
The loop returns on the first address attribute of either kind, also when it cannot be read; what it is for
is the XOR-MAPPED-ADDRESS, with the MAPPED-ADDRESS to fall back on. -/
namespace AnyKvm
namespace Turn

open Outcome Bytes TlvWalk

structure BindingResponse (data : Bytes) : Prop where
  length : 20 ≤ data.length
  cookie : hasCookie data
  msgType : msgType data = 0x0101

instance (data : Bytes) : Decidable (BindingResponse data) :=
  decidable_of_iff (20 ≤ data.length ∧ hasCookie data ∧ msgType data = 0x0101)
    ⟨fun h => ⟨h.1,h.2.1,h.2.2⟩,fun h => ⟨h.length,h.cookie,h.msgType⟩⟩

def xorOf? (f : UInt16 × Bytes) : Option SocketAddr := if f.1 = 0x0020 then xorMapped? f.2 else none

def mappedOf? (f : UInt16 × Bytes) : Option SocketAddr := if f.1 = 0x0001 then mapped? f.2 else none

/-- The first valid XOR-MAPPED-ADDRESS, or else the first valid MAPPED-ADDRESS. -/
def preferred? (fields : List (UInt16 × Bytes)) : Option SocketAddr :=
  (fields.findSome? xorOf?).or (fields.findSome? mappedOf?)

/-- The preferred address is returned, and the attribute that is used is a MAPPED-ADDRESS only if there is
no valid XOR-MAPPED-ADDRESS. -/
structure Precedence (data : Bytes) : Prop where
  returned : ((parseStunResponse data).attempt : Panicking _) = .ok (preferred? (messageFields data))
  fallback : ∀ f, (messageFields data).find? isAddress = some f → f.1 = 0x0001 →
    (messageFields data).findSome? xorOf? = none

/-- The first address attribute is a valid XOR-MAPPED-ADDRESS, or it is a valid MAPPED-ADDRESS and there is no
valid XOR-MAPPED-ADDRESS; or else no address attribute is valid. -/
def FirstPreferred (fields : List (UInt16 × Bytes)) : Prop :=
  (∃ f, fields.find? isAddress = some f ∧
    (xorOf? f ≠ none ∨ mappedOf? f ≠ none ∧ fields.findSome? xorOf? = none)) ∨
  ∀ f ∈ fields, xorOf? f = none ∧ mappedOf? f = none

section Fields
variable {f : UInt16 × Bytes} {fields : List (UInt16 × Bytes)}

theorem parseAddress_attempt (h : isAddress f = true) :
    ((parseAddress f).attempt : Panicking _) = .ok ((xorOf? f).or (mappedOf? f)) := by
  unfold parseAddress xorOf? mappedOf?
  by_cases hxor : f.1 = 0x0020
  · rw [if_pos hxor,if_pos hxor,if_neg (by rw [hxor]; decide),Option.or_none]
    exact parseXorMapped_attempt _
  · have hmapped : f.1 = 0x0001 := (of_decide_eq_true h).resolve_left hxor
    rw [if_neg hxor,if_neg hxor,if_pos hmapped,Option.none_or]
    exact parseMapped_attempt _

theorem not_isAddress (h : isAddress f = false) : xorOf? f = none ∧ mappedOf? f = none := by
  have hne := of_decide_eq_false h
  exact ⟨if_neg fun hxor => hne (.inl hxor),if_neg fun hmapped => hne (.inr hmapped)⟩

theorem findSome?_of_find? (h : fields.find? isAddress = some f) {g : UInt16 × Bytes → Option SocketAddr}
    (hg : ∀ f, isAddress f = false → g f = none) : ∃ rest, fields.findSome? g = (g f).or rest := by
  obtain ⟨-,pre,post,rfl,hpre⟩ := List.find?_eq_some_iff_append.mp h
  refine ⟨post.findSome? g,?_⟩
  have hnone : pre.findSome? g = none := by
    rw [List.findSome?_eq_none_iff]
    intro x hx
    exact hg x (by simpa using hpre x hx)
  rw [List.findSome?_append,hnone,Option.none_or,List.findSome?_cons]
  cases g f <;> rfl

theorem preferred?_eq_none : preferred? fields = none ↔ ∀ f ∈ fields, xorOf? f = none ∧ mappedOf? f = none := by
  rw [preferred?,Option.or_eq_none_iff,List.findSome?_eq_none_iff,List.findSome?_eq_none_iff]
  exact ⟨fun h f hf => ⟨h.1 f hf,h.2 f hf⟩,fun h => ⟨fun f hf => (h f hf).1,fun f hf => (h f hf).2⟩⟩

end Fields

/-- The address in the first address attribute. -/
def firstAddress? (fields : List (UInt16 × Bytes)) : Option SocketAddr :=
  (fields.find? isAddress).bind fun f => (xorOf? f).or (mappedOf? f)

theorem parseStunResponse_of_response {data : Bytes} (h : BindingResponse data) :
    ((parseStunResponse data).attempt : Panicking _) = .ok (firstAddress? (messageFields data)) := by
  rw [parseStunResponse_fields,if_neg (Nat.not_lt.mpr h.length),if_neg (not_not.mpr h.cookie),
    if_neg (not_not.mpr h.msgType),firstAddress?]
  cases hfirst : (messageFields data).find? isAddress with
  | none => rfl
  | some f => exact parseAddress_attempt (List.find?_some hfirst)

/-- With a first address attribute the condition is one on that attribute. -/
theorem firstPreferred_iff {fields : List (UInt16 × Bytes)} {f : UInt16 × Bytes}
    (h : fields.find? isAddress = some f) : FirstPreferred fields ↔
      xorOf? f ≠ none ∨ (mappedOf? f ≠ none ∧ fields.findSome? xorOf? = none) ∨
        ∀ f ∈ fields, xorOf? f = none ∧ mappedOf? f = none := by
  unfold FirstPreferred
  simp only [h,Option.some.injEq,exists_eq_left',or_assoc]

theorem type_of_mappedOf? {f : UInt16 × Bytes} {addr : SocketAddr} (h : mappedOf? f = some addr) :
    f.1 = 0x0001 := by
  by_contra hne
  rw [mappedOf?,if_neg hne] at h
  cases h

theorem xorOf?_of_mapped {f : UInt16 × Bytes} (h : f.1 = 0x0001) : xorOf? f = none :=
  if_neg (by rw [h]; decide)

theorem firstAddress?_eq_preferred_iff (fields : List (UInt16 × Bytes)) :
    firstAddress? fields = preferred? fields ∧
      (∀ f, fields.find? isAddress = some f → f.1 = 0x0001 → fields.findSome? xorOf? = none) ↔
    FirstPreferred fields := by
  cases hfirst : fields.find? isAddress with
  | none =>
    have hnone : ∀ f ∈ fields, xorOf? f = none ∧ mappedOf? f = none := fun f hf =>
      not_isAddress (by simpa using List.find?_eq_none.mp hfirst f hf)
    refine iff_of_true ⟨?_,by simp⟩ (.inr hnone)
    rw [firstAddress?,hfirst,preferred?_eq_none.mpr hnone]
    rfl
  | some f =>
    have hmem := List.mem_of_find?_eq_some hfirst
    obtain ⟨xors,hxors⟩ := findSome?_of_find? hfirst fun f hf => (not_isAddress hf).1
    obtain ⟨mappeds,hmappeds⟩ := findSome?_of_find? hfirst fun f hf => (not_isAddress hf).2
    rw [firstPreferred_iff hfirst,firstAddress?,hfirst,Option.bind_some]
    cases hxor : xorOf? f with
    | some addr =>
      refine iff_of_true ⟨?_,?_⟩ (.inl nofun)
      · rw [preferred?,hxors,hxor]
        rfl
      · rintro g hg hmapped
        cases hg
        rw [xorOf?_of_mapped hmapped] at hxor
        cases hxor
    | none =>
      cases hmapped : mappedOf? f with
      | some addr =>
        constructor
        · rintro ⟨-,h⟩
          exact .inr (.inl ⟨nofun,h f rfl (type_of_mappedOf? hmapped)⟩)
        · rintro (h | ⟨-,hnone⟩ | hnone)
          · exact absurd rfl h
          · refine ⟨?_,fun _ _ _ => hnone⟩
            rw [preferred?,hnone,hmappeds,hmapped]
            rfl
          · rw [(hnone f hmem).2] at hmapped
            cases hmapped
      | none =>
        rw [Option.or_none,eq_comm,preferred?_eq_none]
        constructor
        · rintro ⟨hnone,-⟩
          exact .inr (.inr hnone)
        · rintro (h | ⟨h,-⟩ | hnone)
          · exact absurd rfl h
          · exact absurd rfl h
          · exact ⟨hnone,fun _ _ _ => List.findSome?_eq_none_iff.mpr fun g hg => (hnone g hg).1⟩

/-- The XOR-MAPPED-ADDRESS takes precedence exactly if the attributes come in an order in which the first one
of the two kinds is the right one. -/
theorem precedence_iff {data : Bytes} (h : BindingResponse data) :
    Precedence data ↔ FirstPreferred (messageFields data) := by
  rw [← firstAddress?_eq_preferred_iff]
  constructor
  · intro hp
    exact ⟨Outcome.ok.inj ((parseStunResponse_of_response h).symm.trans hp.returned),hp.fallback⟩
  · rintro ⟨hreturned,hfallback⟩
    exact ⟨by rw [parseStunResponse_of_response h,hreturned],hfallback⟩

/-- A Binding response with 203.0.113.7:5000 in its XOR-MAPPED-ADDRESS, and behind that the MAPPED-ADDRESS
192.168.1.5:5000 that a router has rewritten. -/
def xorFirst : Bytes :=
  request 0x0101 (genTxnId 5) (appendAttr (appendAttr [] 0x0020 [0,1,0x32,0x9A,0xEA,0x12,0xD5,0x45])
    0x0001 [0,1,0x13,0x88,192,168,1,5])

theorem precedence_iff_xorFirst :
    ((messageFields xorFirst).findSome? xorOf? = some ⟨.v4 0xCB007107,5000⟩ ∧
      (messageFields xorFirst).findSome? mappedOf? = some ⟨.v4 0xC0A80105,5000⟩) ∧ Precedence xorFirst := by
  refine ⟨by decide,(precedence_iff (by decide)).mpr (.inl ⟨(0x0020,[0,1,0x32,0x9A,0xEA,0x12,0xD5,0x45]),?_,.inl ?_⟩)⟩
  · decide
  · decide

/-- The same with the MAPPED-ADDRESS in front. -/
def rewrittenResponse : Bytes :=
  request 0x0101 (genTxnId 5) (appendAttr (appendAttr [] 0x0001 [0,1,0x13,0x88,192,168,1,5])
    0x0020 [0,1,0x32,0x9A,0xEA,0x12,0xD5,0x45])

/-- The router's address is returned. -/
theorem rewritten_address_returned : ∃ data, BindingResponse data ∧
    preferred? (messageFields data) = some ⟨.v4 0xCB007107,5000⟩ ∧
    parseStunResponse data = .ok ⟨.v4 0xC0A80105,5000⟩ ∧ ¬ Precedence data := by
  refine ⟨rewrittenResponse,by decide,by decide,by decide,fun h => ?_⟩
  have hreturned := h.returned
  revert hreturned
  decide

end Turn
end AnyKvm
