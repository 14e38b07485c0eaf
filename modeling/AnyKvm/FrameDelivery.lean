import AnyKvm.VideoRestart
import AnyKvm.Mpsc

/-! Whether an encoded frame is dropped because nobody takes the frames.
The capture thread of `main.rs` runs one back end after the other over the same channel. Each looks at the
capacity of the channel before it captures a frame, and sends without waiting once the frame is encoded;
in between the receiver may run at any time. -/
namespace AnyKvm
namespace FrameDelivery

open Transition Video

/-- Where a pass of a capture loop stands. A screen capture has its frame (`captured`) before it looks at
the capacity; the other back ends have seen the capacity (`ready`) before they fetch a frame. -/
inductive Point
  | top
  | checked
  | captured
  | ready
  | encoding
  | sending (frame : Bytes)
  deriving DecidableEq

def Point.held : Point → List Bytes
  | .sending frame => [frame]
  | _ => []

/-- The buffer of a captured frame; there are none without bytes. -/
def Buffer := { bytes : Bytes // bytes ≠ [] }

/-- What a fetch of a frame returns; a screen capture may have none yet. -/
inductive Capture (E : Type*)
  | frame (buf : Buffer)
  | wouldBlock
  | error (e : E)

/-- What becomes of a frame: only the JPEG of a capture card may fail to decode. -/
inductive Encode (E : Type*)
  | output (bytes : Bytes)
  | undecodable
  | error (e : E)

/-- The capture thread and its channel. `encoded` is history: what the encoders have put out, and the
buffers of a device that encodes by itself. -/
structure State where
  videoCfg : VideoConfig
  video : Video.State
  fallenBack : Bool := false
  point : Point := .top
  channel : Mpsc Bytes 32 := {}
  encoded : List Bytes := []

inductive Action (E : Type*)
  | control (a : Video.Action E)
  | check
  | capacity
  | capture (r : Capture E)
  | encode (r : Encode E)
  | trySend
  | fallBack
  | recv
  | close

def State.start (cfg : VideoConfig) : State where
  videoCfg := cfg
  video := .start cfg true

def State.outputs (s : State) : List Bytes := s.encoded.filter (· ≠ [])

section Machine
variable {E : Type*} (features : Features) (display : E → List Char)

namespace State
variable (s : State)

def goto (point : Point) : State := { s with point := point }

def looping? : Option (Backend × VideoConfig) :=
  match s.video.phase with
  | .looping b cfgMut => some (b,cfgMut)
  | _ => none

def fail (b : Backend) (e : E) : State :=
  { s with video := s.video.fail b (display e), point := .top }

/-- `check_video_ctrl` at the top of a loop, which may end it for a restart. -/
def check (b : Backend) (cfgMut : VideoConfig) : State :=
  { s with video := s.video.poll display b cfgMut .again,
           point := if (checkVideoCtrl s.video.ctrlRx cfgMut).2 then .top else .checked }

/-- `channel_has_capacity`: without it the rest of the pass is left out. -/
def capacity (next : Point) : State := s.goto (if s.channel.hasCapacity then next else .top)

def capture (b : Backend) : Capture E → State
  | .frame buf => match b with
    | .hw => { s with point := .sending buf.val, encoded := s.encoded ++ [buf.val] }
    | .sw | .mjpeg => s.goto .encoding
    | .screen => s.goto .captured
  | .wouldBlock => s.goto .top
  | .error e => s.fail display b e

def encode (b : Backend) : Encode E → State
  | .output bytes =>
    { s with point := if bytes = [] then .top else .sending bytes, encoded := s.encoded ++ [bytes] }
  | .undecodable => s.goto .top
  | .error e => s.fail display b e

/-- `try_send_frame`: a full channel drops the frame, a closed one ends the loop. -/
def trySend (frame : Bytes) : State :=
  match s.channel.trySend frame with
  | (.closed,channel) => { s with channel := channel, video := s.video.goto (.returned true), point := .top }
  | (_,channel) => { s with channel := channel, point := .top }

/-- After a failure of another source, `main` goes on with `video::run` and the screen. -/
def fallBack : State :=
  { s with video := .start { s.videoCfg with source := "screen" } false, fallenBack := true }

end State

/-- Only screen captures may have no frame yet, and only JPEG can fail to decode. -/
def Capture.possible (b : Backend) : Capture E → Bool
  | .wouldBlock => b = .screen
  | _ => true

def Encode.possible (b : Backend) : Encode E → Bool
  | .undecodable => b = .mjpeg
  | _ => true

/-- The control flow of `run_with_ctrl` but for the passes of the capture loops. -/
def controls : Video.Action E → Bool
  | .poll _ => false
  | _ => true

def step (s : State) : Action E → Option State
  | .control a =>
    if controls a then (Video.step features display s.video a).map fun video => { s with video := video }
    else none
  | .check => match s.looping?,s.point with
    | some (b,cfgMut),.top => some (s.check display b cfgMut)
    | _,_ => none
  | .capacity => match s.looping?,s.point with
    | some (.screen,_),.captured => some (s.capacity .encoding)
    | some (.hw,_),.checked | some (.sw,_),.checked | some (.mjpeg,_),.checked => some (s.capacity .ready)
    | _,_ => none
  | .capture r => match s.looping?,s.point with
    | some (.screen,_),.checked => some (s.capture display .screen r)
    | some (b,_),.ready => if r.possible b then some (s.capture display b r) else none
    | _,_ => none
  | .encode r => match s.looping?,s.point with
    | some (b,_),.encoding => if r.possible b then some (s.encode display b r) else none
    | _,_ => none
  | .trySend => match s.point with
    | .sending frame => some (s.trySend frame)
    | _ => none
  | .fallBack =>
    if s.video.phase = .returned false ∧ s.fallenBack = false ∧ s.videoCfg.source ≠ "screen" then some s.fallBack
    else none
  | .recv => s.channel.recv.map fun channel => { s with channel := channel }
  | .close => if s.channel.closed then none else some { s with channel := s.channel.close }

/-- A frame is captured or encoded at these points: the capacity has been seen in the same pass. -/
def Point.SeenCapacity : Point → Prop
  | .ready | .encoding | .sending _ => True
  | .top | .checked | .captured => False

inductive Effect (s s' : State) : Prop
  | quiet (hchannel : s'.channel = s.channel) (hencoded : s'.encoded = s.encoded) (hheld : s.point.held = [])
    (hheld' : s'.point.held = []) (hseen : s'.point.SeenCapacity → s.point.SeenCapacity ∨ s.channel.hasCapacity = true)
  | passing (hchannel : s'.channel = s.channel) (hencoded : s'.encoded = s.encoded) (hpoint : s'.point = s.point)
  | output (bytes : Bytes) (hchannel : s'.channel = s.channel) (hencoded : s'.encoded = s.encoded ++ [bytes])
    (hheld : s.point.held = []) (hseen : s.point.SeenCapacity)
    (hpoint : s'.point = if bytes = [] then .top else .sending bytes)
  | trySend (frame : Bytes) (hpoint : s.point = .sending frame) (hsend : s' = s.trySend frame)
  | recv (hchannel : s.channel.recv = some s'.channel) (hencoded : s'.encoded = s.encoded) (hpoint : s'.point = s.point)
  | close (hchannel : s'.channel = s.channel.close) (hencoded : s'.encoded = s.encoded) (hpoint : s'.point = s.point)

variable {features display} {s s' : State} {a : Action E}

theorem step_inv (h : step features display s a = some s') : match a with
    | .control _ => ∃ video, s' = { s with video := video }
    | .check => ∃ b cfgMut, s.point = .top ∧ s' = s.check display b cfgMut
    | .capacity => ∃ next, s.point.held = [] ∧ next.held = [] ∧ s' = s.capacity next
    | .capture r => ∃ b cfgMut, s.looping? = some (b,cfgMut) ∧ s.point.held = [] ∧
        (b ≠ .screen → s.point.SeenCapacity) ∧ s' = s.capture display b r
    | .encode r => ∃ b, s.point = .encoding ∧ s' = s.encode display b r
    | .trySend => ∃ frame, s.point = .sending frame ∧ s' = s.trySend frame
    | .fallBack => s' = s.fallBack
    | .recv => ∃ channel, s.channel.recv = some channel ∧ s' = { s with channel := channel }
    | .close => s' = { s with channel := s.channel.close } := by
  cases a with
  | control a =>
    obtain ⟨_,h⟩ := Option.ite_none_right_eq_some.mp h
    obtain ⟨video,_,rfl⟩ := Option.map_eq_some_iff.mp h
    exact ⟨video,rfl⟩
  | check =>
    simp only [step] at h
    split at h
    · rename_i hpoint
      cases h
      exact ⟨_,_,hpoint,rfl⟩
    · cases h
  | capacity =>
    simp only [step] at h
    split at h
    all_goals first | cases h; done | skip
    all_goals
      rename_i hpoint
      cases h
      exact ⟨_,by rw [hpoint]; rfl,rfl,rfl⟩
  | capture r =>
    simp only [step] at h
    split at h
    · rename_i hlooping hpoint
      cases h
      exact ⟨_,_,hlooping,by rw [hpoint]; rfl,fun hb => absurd rfl hb,rfl⟩
    · rename_i hlooping hpoint
      obtain ⟨_,h⟩ := Option.ite_none_right_eq_some.mp h
      cases h
      exact ⟨_,_,hlooping,by rw [hpoint]; rfl,fun _ => by rw [hpoint]; trivial,rfl⟩
    · cases h
  | encode r =>
    simp only [step] at h
    split at h
    · rename_i hpoint
      obtain ⟨_,h⟩ := Option.ite_none_right_eq_some.mp h
      cases h
      exact ⟨_,hpoint,rfl⟩
    · cases h
  | trySend =>
    simp only [step] at h
    split at h
    · rename_i frame hpoint
      cases h
      exact ⟨frame,hpoint,rfl⟩
    · cases h
  | fallBack =>
    obtain ⟨_,h⟩ := Option.ite_none_right_eq_some.mp h
    exact (Option.some.inj h).symm
  | recv =>
    obtain ⟨channel,hrecv,rfl⟩ := Option.map_eq_some_iff.mp h
    exact ⟨channel,hrecv,rfl⟩
  | close =>
    obtain ⟨_,h⟩ := Option.ite_none_left_eq_some.mp h
    exact (Option.some.inj h).symm

theorem effect_capacity {next : Point} (hheld : s.point.held = []) (hnext : next.held = []) :
    Effect s (s.capacity next) := by
  unfold State.capacity
  cases hcapacity : s.channel.hasCapacity with
  | true => exact .quiet rfl rfl hheld hnext fun _ => .inr hcapacity
  | false => exact .quiet rfl rfl hheld rfl nofun

theorem effect_capture {b : Backend} {r : Capture E} (hheld : s.point.held = [])
    (hseen : b ≠ .screen → s.point.SeenCapacity) : Effect s (s.capture display b r) := by
  cases r with
  | wouldBlock => exact .quiet rfl rfl hheld rfl nofun
  | error e => exact .quiet rfl rfl hheld rfl nofun
  | frame buf =>
    cases b with
    | hw => exact .output buf.val rfl rfl hheld (hseen nofun) (if_neg buf.property).symm
    | sw => exact .quiet rfl rfl hheld rfl fun _ => .inl (hseen nofun)
    | mjpeg => exact .quiet rfl rfl hheld rfl fun _ => .inl (hseen nofun)
    | screen => exact .quiet rfl rfl hheld rfl nofun

theorem effect_encode {b : Backend} {r : Encode E} (hpoint : s.point = .encoding) :
    Effect s (s.encode display b r) := by
  have hheld : s.point.held = [] := by rw [hpoint]; rfl
  cases r with
  | undecodable => exact .quiet rfl rfl hheld rfl nofun
  | error e => exact .quiet rfl rfl hheld rfl nofun
  | output bytes => exact .output bytes rfl rfl hheld (by rw [hpoint]; trivial) rfl

theorem effect_check {b : Backend} {cfgMut : VideoConfig} (hpoint : s.point = .top) :
    Effect s (s.check display b cfgMut) := by
  refine .quiet rfl rfl (by rw [hpoint]; rfl) ?_ ?_
  · unfold State.check
    dsimp only
    split <;> rfl
  · unfold State.check
    dsimp only
    split <;> nofun

theorem step_effect (h : step features display s a = some s') : Effect s s' := by
  have h := step_inv h
  cases a with
  | control a =>
    obtain ⟨video,rfl⟩ := h
    exact .passing rfl rfl rfl
  | check =>
    obtain ⟨b,cfgMut,hpoint,rfl⟩ := h
    exact effect_check hpoint
  | capacity =>
    obtain ⟨next,hheld,hnext,rfl⟩ := h
    exact effect_capacity hheld hnext
  | capture r =>
    obtain ⟨b,cfgMut,_,hheld,hseen,rfl⟩ := h
    exact effect_capture hheld hseen
  | encode r =>
    obtain ⟨b,hpoint,rfl⟩ := h
    exact effect_encode hpoint
  | trySend =>
    obtain ⟨frame,hpoint,hs'⟩ := h
    exact .trySend frame hpoint hs'
  | fallBack =>
    obtain rfl : s' = s.fallBack := h
    exact .passing rfl rfl rfl
  | recv =>
    obtain ⟨channel,hrecv,rfl⟩ := h
    exact .recv hrecv rfl rfl
  | close =>
    obtain rfl : s' = { s with channel := s.channel.close } := h
    exact .close rfl rfl rfl

/-- Once the capacity has been seen there is room until the frame is sent: nobody else sends. While there is
a receiver, what has been sent and what is about to be sent is all that the encoders have put out. -/
structure Sound (s : State) : Prop where
  inOrder : s.channel.InOrder
  refused : s.channel.refused = []
  room : s.point.SeenCapacity → s.channel.Room
  held : s.channel.closed = false → s.channel.sent ++ s.point.held = s.outputs
  sent : s.channel.sent <+: s.outputs

theorem sound_start (cfg : VideoConfig) : Sound (.start cfg) :=
  ⟨Mpsc.inOrder_new,rfl,nofun,fun _ => rfl,List.prefix_refl _⟩

theorem Sound.room_or (hs : Sound s) (h : s.point.SeenCapacity ∨ s.channel.hasCapacity = true) : s.channel.Room :=
  h.elim hs.room Mpsc.room_of_hasCapacity

theorem outputs_eq (h : s'.encoded = s.encoded) : s'.outputs = s.outputs := by
  rw [State.outputs,h]
  rfl

theorem outputs_snoc {bytes : Bytes} (h : s'.encoded = s.encoded ++ [bytes]) :
    s'.outputs = s.outputs ++ if bytes = [] then [] else [bytes] := by
  have hlast : [bytes].filter (· ≠ []) = if bytes = [] then [] else [bytes] := by
    by_cases hbytes : bytes = [] <;> simp [hbytes]
  rw [State.outputs,h,List.filter_append,hlast]
  rfl

theorem Sound.trySend (hs : Sound s) {frame : Bytes} (hpoint : s.point = .sending frame) :
    Sound (s.trySend frame) := by
  have hroom := hs.room (by rw [hpoint]; trivial)
  cases hclosed : s.channel.closed with
  | true =>
    rw [State.trySend,Mpsc.trySend_of_closed hclosed]
    exact ⟨hs.inOrder,hs.refused,nofun,fun h => absurd (hclosed.symm.trans h) nofun,hs.sent⟩
  | false =>
    obtain ⟨queue,hitems,hsend⟩ := Mpsc.trySend_of_room (a := frame) hclosed hroom
    have hheld := hs.held hclosed
    rw [hpoint] at hheld
    rw [State.trySend,hsend]
    refine ⟨hs.inOrder.push hitems,hs.refused,nofun,fun _ => ?_,?_⟩
    · exact (List.append_nil _).trans hheld
    · exact hheld ▸ List.prefix_refl _

theorem Sound.effect (hs : Sound s) (h : Effect s s') : Sound s' := by
  cases h with
  | quiet hchannel hencoded hheld hheld' hseen =>
    have houtputs := outputs_eq hencoded
    refine ⟨?_,?_,?_,?_,?_⟩
    · exact hchannel ▸ hs.inOrder
    · exact hchannel ▸ hs.refused
    · exact fun h => hchannel ▸ hs.room_or (hseen h)
    · rw [hchannel,houtputs,hheld',← hheld]
      exact hs.held
    · rw [hchannel,houtputs]
      exact hs.sent
  | passing hchannel hencoded hpoint =>
    have houtputs := outputs_eq hencoded
    refine ⟨?_,?_,?_,?_,?_⟩
    · exact hchannel ▸ hs.inOrder
    · exact hchannel ▸ hs.refused
    · rw [hpoint,hchannel]
      exact hs.room
    · rw [hchannel,houtputs,hpoint]
      exact hs.held
    · rw [hchannel,houtputs]
      exact hs.sent
  | output bytes hchannel hencoded hheld hseen hpoint =>
    have houtputs := outputs_snoc hencoded
    have hheld' : s'.point.held = if bytes = [] then [] else [bytes] := by
      rw [hpoint]
      split <;> rfl
    refine ⟨?_,?_,?_,?_,?_⟩
    · exact hchannel ▸ hs.inOrder
    · exact hchannel ▸ hs.refused
    · exact fun _ => hchannel ▸ hs.room hseen
    · intro hclosed
      rw [hchannel] at hclosed
      rw [hchannel,houtputs,hheld',← hs.held hclosed,hheld,List.append_nil]
    · rw [hchannel,houtputs]
      exact hs.sent.trans (List.prefix_append _ _)
  | trySend frame hpoint hsend => exact hsend ▸ hs.trySend hpoint
  | recv hrecv hencoded hpoint =>
    have houtputs := outputs_eq hencoded
    obtain ⟨hclosed,a,queue,hitems,hchannel⟩ := Mpsc.recv_eq_some.mp hrecv
    have hsent : s'.channel.sent = s.channel.sent := by rw [hchannel]
    refine ⟨hs.inOrder.recv hrecv,?_,?_,?_,?_⟩
    · rw [hchannel]
      exact hs.refused
    · exact fun h => (hs.room (hpoint ▸ h)).recv hrecv
    · intro _
      rw [hsent,houtputs,hpoint]
      exact hs.held hclosed
    · rw [hsent,houtputs]
      exact hs.sent
  | close hchannel hencoded hpoint =>
    have houtputs := outputs_eq hencoded
    refine ⟨?_,?_,?_,?_,?_⟩
    · exact hchannel ▸ hs.inOrder.close
    · rw [hchannel]
      exact hs.refused
    · exact fun _ => hchannel ▸ Mpsc.Room.close
    · rw [hchannel]
      exact nofun
    · rw [hchannel,houtputs]
      exact hs.sent

theorem sound_of_run {cfg : VideoConfig} {as : List (Action E)}
    (h : Run (step features display) (.start cfg) as s) : Sound s :=
  h.invariant (P := fun _ s => Sound s) (sound_start cfg) fun _ _ _ _ _ hs hstep => hs.effect (step_effect hstep)

/-- What an action puts out in a state: the result of an encoder, or the buffer of a device that encodes by
itself. -/
def State.output (s : State) : Action E → List Bytes
  | .encode (.output bytes) => [bytes]
  | .capture (.frame buf) => match s.looping? with
    | some (.hw,_) => [buf.val]
    | _ => []
  | _ => []

variable (features display) in
def outputsFrom : State → List (Action E) → List Bytes
  | _, [] => []
  | s, a :: as => s.output a ++ ((step features display s a).elim [] fun s' => outputsFrom s' as)

theorem encoded_capture {b : Backend} {cfgMut : VideoConfig} (hlooping : s.looping? = some (b,cfgMut))
    (r : Capture E) : (s.capture display b r).encoded = s.encoded ++ s.output (.capture r) := by
  cases r with
  | frame buf => cases b <;> simp [State.capture,State.goto,State.output,hlooping]
  | _ => exact (List.append_nil _).symm

theorem encoded_encode (b : Backend) (r : Encode E) :
    (s.encode display b r).encoded = s.encoded ++ s.output (.encode r) := by
  cases r with
  | output bytes => rfl
  | _ => exact (List.append_nil _).symm

/-- The history of the outputs grows by what the action puts out. -/
theorem encoded_of_step (h : step features display s a = some s') : s'.encoded = s.encoded ++ s.output a := by
  have h := step_inv h
  cases a with
  | capture r =>
    obtain ⟨b,cfgMut,hlooping,_,_,rfl⟩ := h
    exact encoded_capture hlooping r
  | encode r =>
    obtain ⟨b,_,rfl⟩ := h
    exact encoded_encode b r
  | trySend =>
    obtain ⟨frame,_,rfl⟩ := h
    unfold State.trySend
    split <;> exact (List.append_nil _).symm
  | control a =>
    obtain ⟨video,rfl⟩ := h
    exact (List.append_nil _).symm
  | check =>
    obtain ⟨b,cfgMut,_,rfl⟩ := h
    exact (List.append_nil _).symm
  | capacity =>
    obtain ⟨next,_,_,rfl⟩ := h
    exact (List.append_nil _).symm
  | recv =>
    obtain ⟨channel,_,rfl⟩ := h
    exact (List.append_nil _).symm
  | fallBack =>
    obtain rfl : s' = s.fallBack := h
    exact (List.append_nil _).symm
  | close =>
    obtain rfl : s' = { s with channel := s.channel.close } := h
    exact (List.append_nil _).symm

theorem encoded_of_replay {as : List (Action E)} (h : replay (step features display) s as = some s') :
    s'.encoded = s.encoded ++ outputsFrom features display s as := by
  induction as generalizing s with
  | nil =>
    cases h
    exact (List.append_nil _).symm
  | cons a as ih =>
    obtain ⟨mid,hmid,hrest⟩ := Option.bind_eq_some_iff.mp h
    rw [ih hrest,encoded_of_step hmid,outputsFrom,hmid,List.append_assoc]
    rfl

/-- No frame is dropped for want of room. As long as the channel is open, what has been received, what waits in
the channel and what is about to be sent are the outputs of the encoders, in order; once it is closed, what
has been received stays the beginning of them. -/
structure Delivered (s : State) : Prop where
  never_full : ∀ frame, s.point = .sending frame → (s.channel.trySend frame).1 ≠ .full
  refused : s.channel.refused = []
  opened : s.channel.closed = false →
    s.channel.received ++ s.channel.queue.items ++ s.point.held = s.outputs
  received : s.channel.received <+: s.outputs

theorem delivered_of_sound (hs : Sound s) : Delivered s := by
  refine ⟨?_,hs.refused,?_,?_⟩
  · intro frame hpoint
    cases hclosed : s.channel.closed with
    | true =>
      rw [Mpsc.trySend_of_closed hclosed]
      nofun
    | false =>
      obtain ⟨queue,_,hsend⟩ := Mpsc.trySend_of_room (a := frame) hclosed (hs.room (by rw [hpoint]; trivial))
      rw [hsend]
      nofun
  · intro hclosed
    have horder := hs.inOrder.order
    rw [hs.inOrder.opened hclosed,List.append_nil] at horder
    rw [horder]
    exact hs.held hclosed
  · refine List.IsPrefix.trans ?_ hs.sent
    rw [← hs.inOrder.order,List.append_assoc]
    exact List.prefix_append _ _

/-- At every point of a run the frames are delivered, and the outputs are those of the actions so far. -/
theorem delivered {cfg : VideoConfig} {as : List (Action E)}
    (h : Run (step features display) (.start cfg) as s) :
    Delivered s ∧ s.encoded = outputsFrom features display (.start cfg) as.reverse :=
  ⟨delivered_of_sound (sound_of_run h),encoded_of_replay h.replay⟩

end Machine

/-- A device that encodes nothing by itself gives a frame to the software encoder, and then fails. The screen
that is captured instead has no frame at first, and then one. -/
def softwareThenScreen : List (Action Unit) :=
  [.control (.begin (.ok ())),.control (.configure .unsupported),.control (.configure .ok),.check,.capacity,
    .capture (.frame ⟨[9,9],by decide⟩),.encode (.output [1]),.trySend,.recv,.check,.capacity,.capture (.error ()),
    .control (.configure .unsupported),.control .parse,.fallBack,.control (.begin (.ok ())),
    .control (.configure .ok),.check,.capture .wouldBlock,.check,.capture (.frame ⟨[8,8],by decide⟩),.capacity,
    .encode (.output [2]),.trySend,.check,.capture (.frame ⟨[7,7],by decide⟩),.capacity,.encode (.output [3])]

theorem delivered_softwareThenScreen :
    ∃ as s, Run (step defaultFeatures noDevice) (.start hardwareConfig) as s ∧ s.fallenBack = true ∧
      s.channel.received = [[1]] ∧ s.channel.queue.items = [[2]] ∧ s.point = .sending [3] ∧
      Delivered s ∧ s.encoded = outputsFrom defaultFeatures noDevice (.start hardwareConfig) as.reverse := by
  obtain ⟨s,hrun,hp⟩ := exists_run_of_replay (step defaultFeatures noDevice) (.start hardwareConfig)
    softwareThenScreen (fun s => s.fallenBack ∧ s.channel.received = [[1]] ∧ s.channel.queue.items = [[2]] ∧
      s.point = .sending [3]) (by decide)
  obtain ⟨hfallen,hreceived,hqueue,hpoint⟩ := of_decide_eq_true hp
  exact ⟨_,s,hrun,hfallen,hreceived,hqueue,hpoint,delivered hrun⟩

end FrameDelivery
end AnyKvm
