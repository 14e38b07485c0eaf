import AnyKvm.RtpStream
import Mathlib.Data.List.Nodup
import Mathlib.Data.List.Pairwise

/-! What the other end makes of one packet, first sent or sent again. -/
namespace AnyKvm.Streams
open H264 (rtpMtu)

def PayloadParams.types (p : PayloadParams) : List ℕ := p.pt :: p.resend.toList

/-- No payload type, main or RTX, is negotiated for two things, and each has seven bits. -/
structure Negotiated (params : List PayloadParams) : Prop where
  distinct : (params.flatMap (·.types)).Nodup
  sevenBits : ∀ p ∈ params, ∀ pt ∈ p.types, pt ≤ 127

/-- A packet as the payloader of this stream makes it. -/
structure Payloaded (params : List PayloadParams) (s : StreamTx) (p : RtpPacket) : Prop where
  number : p.header.sequenceNumber = p.seqNo % 2^16
  ssrc : p.header.ssrc = s.ssrc
  known : hasPt params p.header.payloadType = true
  fits : p.payload.length ≤ rtpMtu

section Lookup

variable {params : List PayloadParams} {param : PayloadParams}

theorem find_of_unique {α : Type} {l : List α} {p : α → Bool} {x : α} (hmem : x ∈ l) (hp : p x = true)
    (huniq : ∀ y ∈ l, p y = true → y = x) : l.find? p = some x := by
  rcases hfind : l.find? p with - | y
  · exact absurd hp (Bool.not_eq_true _ ▸ List.find?_eq_none.mp hfind x hmem)
  · rw [huniq y (List.mem_of_find?_eq_some hfind) (List.find?_some hfind)]

theorem PayloadParams.pt_mem (p : PayloadParams) : p.pt ∈ p.types := .head _

theorem resend_mem {ptRtx : ℕ} (h : param.resend = some ptRtx) : ptRtx ∈ param.types := by
  rw [PayloadParams.types,h]
  exact .tail _ (.head _)

/-- A number is the payload type, main or RTX, of one of the parameters only. -/
theorem Negotiated.unique (hd : Negotiated params) {q : PayloadParams} (pt : ℕ) (hparam : param ∈ params)
    (hq : q ∈ params) (hpt : pt ∈ param.types) (hpt' : pt ∈ q.types) :
    q = param := by
  by_contra hne
  obtain ⟨-,hpair⟩ := List.nodup_flatMap.mp hd.distinct
  have hsymm : Std.Symm (Function.onFun List.Disjoint PayloadParams.types) :=
    ⟨fun _ _ h a ha hb => h hb ha⟩
  exact hpair.forall hq hparam hne hpt' hpt

theorem Negotiated.find_main (hd : Negotiated params) (hparam : param ∈ params) :
    params.find? (fun q => q.pt = param.pt ∨ q.resend = some param.pt) = some param := by
  refine find_of_unique hparam (decide_eq_true (.inl rfl)) fun q hq hpt => ?_
  refine hd.unique param.pt hparam hq param.pt_mem ?_
  rcases of_decide_eq_true hpt with heq | heq
  · exact heq ▸ q.pt_mem
  · exact resend_mem heq

theorem Negotiated.find_resend (hd : Negotiated params) (hparam : param ∈ params) {ptRtx : ℕ}
    (hresend : param.resend = some ptRtx) :
    params.find? (fun q => q.pt = ptRtx ∨ q.resend = some ptRtx) = some param ∧ param.pt ≠ ptRtx := by
  constructor
  · refine find_of_unique hparam (decide_eq_true (.inr hresend)) fun q hq hpt => ?_
    refine hd.unique ptRtx hparam hq (resend_mem hresend) ?_
    rcases of_decide_eq_true hpt with heq | heq
    · exact heq ▸ q.pt_mem
    · exact resend_mem heq
  · obtain ⟨hnodup,-⟩ := List.nodup_flatMap.mp hd.distinct
    have := hnodup param hparam
    rw [PayloadParams.types,hresend] at this
    intro heq
    simp [heq] at this

end Lookup

section Receive

variable {params : List PayloadParams} {param : PayloadParams} {pt : ℕ} {header : RtpHeader}
  {payload : Bytes} {kind : NextPacketKind}

theorem find_mem (hfind : params.find? (fun p => p.pt = pt) = some param) :
    param ∈ params ∧ param.pt = pt := by
  have hpt := List.find?_some hfind
  exact ⟨List.mem_of_find?_eq_some hfind,of_decide_eq_true hpt⟩

theorem exists_find (hknown : hasPt params pt = true) :
    ∃ param, params.find? (fun p => p.pt = pt) = some param := by
  rw [← Option.isSome_iff_exists,List.find?_isSome]
  exact List.any_eq_true.mp hknown

theorem receive_regular (hd : Negotiated params) {p : SentPacket}
    (hfind : params.find? (fun q => q.pt = p.header.payloadType) = some param) {ssrc : ℕ}
    (hbody : p.unpadded = some payload) : receive params ssrc p = some (p.header,payload) := by
  obtain ⟨hmem,hpt⟩ := find_mem hfind
  have hmain := hd.find_main hmem
  rw [hpt] at hmain
  simp only [receive,hmain,hbody,Option.bind_some,hpt,ne_eq,not_true_eq_false,if_false]

theorem receive_resend (hd : Negotiated params) {seqNo seqNoRtx ptRtx ssrcRtx : ℕ} {p : SentPacket}
    (hfind : params.find? (fun q => q.pt = header.payloadType) = some param)
    (hresend : param.resend = some ptRtx) (hnumber : header.sequenceNumber = seqNo % 2^16)
    (hheader : p.header =
      { header with payloadType := ptRtx,ssrc := ssrcRtx,sequenceNumber := seqNoRtx })
    (hbody : p.unpadded = some (writeOriginalSequenceNumber seqNo ++ payload)) :
    receive params header.ssrc p = some (header,payload) := by
  obtain ⟨hmem,hpt⟩ := find_mem hfind
  obtain ⟨hrtx,hne⟩ := hd.find_resend hmem hresend
  simp only [receive,hheader,hrtx,hbody,Option.bind_some,ne_eq,hne,not_false_eq_true,if_true,
    read_writeOriginalSequenceNumber]
  rw [if_neg (by simp [writeOriginalSequenceNumber])]
  simp only [← hnumber,hpt,writeOriginalSequenceNumber,List.cons_append,List.nil_append,List.drop_succ_cons,
    List.drop_zero]

end Receive

end AnyKvm.Streams
