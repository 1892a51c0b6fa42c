import Conduit.Lifecycle.Timeline

/-!
# Request streams of HTTP/3

`drive_request` collects the request body from an h3 stream, calls the handler
and pumps the frames of the response body back.  The stream is a parameter:
what it delivers, and which of the operations on it fail.
-/

namespace Conduit

inductive Frame where
  | data (bytes : List UInt8)
  | trailers (headers : HeaderMap)
  deriving DecidableEq

/-- The bytes of a data frame; any other frame comes back as it is. -/
def Frame.intoData : Frame → Except Frame (List UInt8)
  | .data bytes => .ok bytes
  | frame => .error frame

def Frame.isData : Frame → Bool
  | .data _ => true
  | .trailers _ => false

namespace H3

/-! ## Request bodies -/

/-- A received buffer, which need not be contiguous: its slices in order. -/
abbrev Buf := List (List UInt8)

namespace Buf

def remaining (b : Buf) : Nat := (b.map List.length).sum

def hasRemaining (b : Buf) : Bool := 0 < b.remaining

def chunk : Buf → List UInt8
  | [] => []
  | slice :: rest => if slice.isEmpty then chunk rest else slice

def advance : Nat → Buf → Buf
  | _, [] => []
  | n, slice :: rest =>
      if n < slice.length then slice.drop n :: rest else advance (n - slice.length) rest

theorem remaining_eq (b : Buf) : b.remaining = b.flatten.length := by
  rw [remaining, List.length_flatten]

theorem flatten_advance (n : Nat) (b : Buf) : (b.advance n).flatten = b.flatten.drop n := by
  induction b generalizing n with
  | nil => simp [advance]
  | cons slice rest ih =>
      rw [advance, List.flatten_cons, List.drop_append]
      split_ifs with hn
      · simp [Nat.sub_eq_zero_of_le hn.le]
      · have hslice : slice.drop n = [] := List.drop_eq_nil_of_le (by omega)
        rw [ih, hslice, List.nil_append]

theorem chunk_prefix_flatten (b : Buf) : b.chunk <+: b.flatten := by
  induction b with
  | nil => exact List.prefix_refl _
  | cons slice rest ih =>
      rcases slice with _ | ⟨byte, bytes⟩
      · exact ih
      · exact List.prefix_append _ _

theorem chunk_append_advance (b : Buf) :
    b.chunk ++ (b.advance b.chunk.length).flatten = b.flatten := by
  rw [flatten_advance]
  exact List.prefix_iff_eq_append.mp b.chunk_prefix_flatten

theorem chunk_length_pos {b : Buf} (h : b.hasRemaining) : 0 < b.chunk.length := by
  induction b with
  | nil => cases h
  | cons slice rest ih =>
      rcases slice with _ | ⟨byte, bytes⟩
      · apply ih
        rwa [hasRemaining, remaining, List.map_cons, List.sum_cons, List.length_nil,
          Nat.zero_add] at h
      · exact Nat.succ_pos _

theorem remaining_advance_lt {b : Buf} (h : b.hasRemaining) :
    (b.advance b.chunk.length).remaining < b.remaining := by
  have hpos := chunk_length_pos h
  have hlength := congrArg List.length (chunk_append_advance b)
  rw [List.length_append, ← remaining_eq, ← remaining_eq] at hlength
  omega

end Buf

/-- The inner loop: take what is contiguous until nothing remains. -/
def drain (b : Buf) (buf : List UInt8) : List UInt8 :=
  if h : b.hasRemaining then
    have := Buf.remaining_advance_lt h
    drain (b.advance b.chunk.length) (buf ++ b.chunk)
  else buf
termination_by b.remaining

theorem drain_eq (b : Buf) (buf : List UInt8) : drain b buf = buf ++ b.flatten := by
  induction b, buf using drain.induct with
  | case1 b buf h _ ih =>
      rw [drain, dif_pos h, ih, List.append_assoc, Buf.chunk_append_advance]
  | case2 b buf h =>
      have hnil : b.flatten = [] := by
        rw [← List.length_eq_zero_iff, ← Buf.remaining_eq]
        simpa [Buf.hasRemaining] using h
      rw [drain, dif_neg h, hnil, List.append_nil]

/-! ## Streams -/

inductive Sent where
  | response (status : UInt16) (headers : HeaderMap)
  | frame (f : Frame)
  | finish

/--
An accepted request stream of the h3 crate, with everything its peer does: how
`recv_data` ends after the chunks, and the error of the operation that follows
`n` successful ones, if it fails.
-/
structure Stream where
  resolveRequest : Except String RequestParts
  chunks : List Buf
  recvError : Option String
  refuses : Nat → Option String

def Stream.send (stream : Stream) (sent : List Sent) (op : Sent) : Except String (List Sent) :=
  match stream.refuses sent.length with
  | none => .ok (sent ++ [op])
  | some message => .error message

structure BufferedRequest where
  parts : RequestParts
  bytes : List UInt8

inductive DriveError (ε : Type) where
  | stream (message : String)
  | body (e : ε)

/-- A run so far: the request the handler got, what was sent, and the result if there is one. -/
structure Progress (ε : Type) where
  handled : Option BufferedRequest
  sent : List Sent
  result : Option (Except (DriveError ε) Unit)

structure Driven (ε : Type) where
  handled : Option BufferedRequest
  sent : List Sent
  result : Except (DriveError ε) Unit

def Progress.driven {ε : Type} (p : Progress ε) : Option (Driven ε) :=
  p.result.map fun result => ⟨p.handled, p.sent, result⟩

def collect (stream : Stream) : List Buf → List UInt8 → Except String (List UInt8)
  | [], buf =>
      match stream.recvError with
      | none => .ok buf
      | some message => .error message
  | chunk :: rest, buf => collect stream rest (drain chunk buf)

theorem collect_eq {stream : Stream} (h : stream.recvError = none) (chunks : List Buf)
    (buf : List UInt8) : collect stream chunks buf = .ok (buf ++ chunks.flatten.flatten) := by
  induction chunks generalizing buf with
  | nil => simp [collect, h]
  | cons chunk rest ih => simp [collect, ih, drain_eq]

section Pump

variable {β ε : Type} (next : β → Option (Yield ε Frame × β))

/--
The frame loop and the end of `drive_request`, with what has been sent and the
result if there is one.  `next` awaits a frame; it gives `none` when the body
stays pending for ever.  The loop itself has no bound, so it is run with fuel.
-/
def pump (stream : Stream) : Nat → β → List Sent →
    List Sent × Option (Except (DriveError ε) Unit)
  | 0, _, sent => (sent, none)
  | fuel + 1, body, sent =>
      match next body with
      | none => (sent, none)
      | some (none, _) =>
          match stream.send sent .finish with
          | .ok sent => (sent, some (.ok ()))
          | .error message => (sent, some (.error (.stream message)))
      | some (some (.error e), _) => (sent, some (.error (.body e)))
      | some (some (.ok frame), body) =>
          match frame.intoData with
          | .ok data =>
              match stream.send sent (.frame (.data data)) with
              | .ok sent => pump stream fuel body sent
              | .error message => (sent, some (.error (.stream message)))
          | .error _ => pump stream fuel body sent

/-- `drive_request`, as far as `fuel` frames of the response take it. -/
def drive (handler : BufferedRequest → Response β) (stream : Stream) (fuel : Nat) : Progress ε :=
  match stream.resolveRequest with
  | .error message => ⟨none, [], some (.error (.stream message))⟩
  | .ok parts =>
      match collect stream stream.chunks [] with
      | .error message => ⟨none, [], some (.error (.stream message))⟩
      | .ok bytes =>
          let req : BufferedRequest := ⟨parts, bytes⟩
          let resp := handler req
          match stream.send [] (.response resp.status resp.headers) with
          | .error message => ⟨some req, [], some (.error (.stream message))⟩
          | .ok sent =>
              let (sent, result) := pump next stream fuel resp.body sent
              ⟨some req, sent, result⟩

def driveRequest (handler : BufferedRequest → Response β) (stream : Stream) (fuel : Nat) :
    Option (Driven ε) :=
  (drive next handler stream fuel).driven

/-- What a body yields until it ends or fails, frame by frame. -/
inductive Produces : β → List Frame → Option ε → Prop where
  | ends {body body' : β} (h : next body = some (none, body')) : Produces body [] none
  | fails {body body' : β} {e : ε} (h : next body = some (some (.error e), body')) :
      Produces body [] (some e)
  | yields {body body' : β} {frame : Frame} {frames : List Frame} {failure : Option ε}
      (h : next body = some (some (.ok frame), body'))
      (rest : Produces body' frames failure) : Produces body (frame :: frames) failure

variable {next} {stream : Stream}

def closing (failure : Option ε) : List Sent :=
  if failure.isNone then [.finish] else []

def ending : Option ε → Except (DriveError ε) Unit
  | none => .ok ()
  | some e => .error (.body e)

theorem pump_of_produces (haccepts : ∀ n, stream.refuses n = none) {body : β}
    {frames : List Frame} {failure : Option ε} (h : Produces next body frames failure)
    {fuel : Nat} (hfuel : frames.length < fuel) (sent : List Sent) :
    pump next stream fuel body sent =
      (sent ++ (frames.filter Frame.isData).map Sent.frame ++ closing failure,
        some (ending failure)) := by
  have hsend : ∀ sent op, stream.send sent op = .ok (sent ++ [op]) := by
    simp [Stream.send, haccepts]
  induction h generalizing fuel sent with
  | ends h =>
      obtain ⟨fuel, rfl⟩ := Nat.exists_eq_add_of_lt hfuel
      simp [pump, h, hsend, closing, ending]
  | fails h =>
      obtain ⟨fuel, rfl⟩ := Nat.exists_eq_add_of_lt hfuel
      simp [pump, h, closing, ending]
  | @yields body body' frame frames failure h rest ih =>
      obtain ⟨fuel, rfl⟩ : ∃ n, fuel = n + 1 := Nat.exists_eq_add_one.mpr (by omega)
      rw [List.length_cons, Nat.add_lt_add_iff_right] at hfuel
      cases frame with
      | data bytes =>
          simp only [pump, h, Frame.intoData, hsend]
          rw [ih hfuel]
          simp [List.filter_cons, Frame.isData]
      | trailers headers =>
          simp only [pump, h, Frame.intoData]
          rw [ih hfuel]
          simp [Frame.isData]

section Whole

variable (haccepts : ∀ n, stream.refuses n = none) (hrecv : stream.recvError = none)
  {parts : RequestParts} (hparts : stream.resolveRequest = .ok parts)
  {handler : BufferedRequest → Response β} {frames : List Frame} {failure : Option ε}
  (h : Produces next (handler ⟨parts, stream.chunks.flatten.flatten⟩).body frames failure)
  {fuel : Nat} (hfuel : frames.length < fuel)
include haccepts hrecv hparts h hfuel

theorem drive_of_produces :
    let req : BufferedRequest := ⟨parts, stream.chunks.flatten.flatten⟩
    drive next handler stream fuel =
      ⟨some req, Sent.response (handler req).status (handler req).headers ::
        (frames.filter Frame.isData).map Sent.frame ++ closing failure,
        some (ending failure)⟩ := by
  intro req
  simp only [drive, hparts, collect_eq hrecv, Stream.send, haccepts, List.nil_append]
  rw [pump_of_produces haccepts h hfuel]
  simp [req]

theorem driveRequest_of_produces :
    let req : BufferedRequest := ⟨parts, stream.chunks.flatten.flatten⟩
    driveRequest next handler stream fuel =
      some ⟨some req, Sent.response (handler req).status (handler req).headers ::
        (frames.filter Frame.isData).map Sent.frame ++ closing failure, ending failure⟩ := by
  intro req
  rw [driveRequest, drive_of_produces haccepts hrecv hparts h hfuel]
  rfl

end Whole

end Pump

/-! ## What the client is told -/

section Told

variable {β ε : Type} {next : β → Option (Yield ε Frame × β)} {stream : Stream}

/--
Where the frame loop stands after it has passed `frames` on, with `rest` of the
body to come and `sent` on the stream: what is on the stream then, and the
result.
-/
inductive Standing (next : β → Option (Yield ε Frame × β)) (stream : Stream) (fuel : Nat)
    (frames : List Frame) (rest : β) (sent : List Sent) :
    List Sent → Option (Except (DriveError ε) Unit) → Prop where
  | running (h : frames.length = fuel) : Standing next stream fuel frames rest sent sent none
  | stalled (h : next rest = none) : Standing next stream fuel frames rest sent sent none
  | finished {rest' : β} (h : next rest = some (none, rest'))
      (haccepts : stream.refuses sent.length = none) :
      Standing next stream fuel frames rest sent (sent ++ [.finish]) (some (.ok ()))
  | failed {rest' : β} {e : ε} (h : next rest = some (some (.error e), rest')) :
      Standing next stream fuel frames rest sent sent (some (.error (.body e)))
  | refused {message : String} (h : stream.refuses sent.length = some message) :
      Standing next stream fuel frames rest sent sent (some (.error (.stream message)))

theorem Standing.cons {frame : Frame} {frames : List Frame} {fuel : Nat} {rest : β}
    {out sent sent' : List Sent} {result : Option (Except (DriveError ε) Unit)}
    (hout : ([frame].filter Frame.isData).map Sent.frame = out)
    (h : Standing next stream fuel frames rest
      (sent ++ out ++ (frames.filter Frame.isData).map Sent.frame) sent' result) :
    Standing next stream (fuel + 1) (frame :: frames) rest
      (sent ++ ((frame :: frames).filter Frame.isData).map Sent.frame) sent' result := by
  have hsent : sent ++ ((frame :: frames).filter Frame.isData).map Sent.frame =
      sent ++ out ++ (frames.filter Frame.isData).map Sent.frame := by
    rw [← hout, ← List.singleton_append, List.filter_append, List.map_append, List.append_assoc]
  rw [hsent]
  cases h with
  | running h => exact .running (by rw [List.length_cons, h])
  | stalled h => exact .stalled h
  | finished h haccepts => exact .finished h haccepts
  | failed h => exact .failed h
  | refused h => exact .refused h

end Told

def stallingNext : Nat → Option (Yield String Frame × Nat)
  | 0 => some (some (.ok (.data [1, 2])), 1)
  | _ => none

def getStream : Stream where
  resolveRequest := .ok ⟨"GET", ⟨none, none, some ⟨"/", none⟩⟩, .http3, []⟩
  chunks := []
  recvError := none
  refuses _ := none

example (fuel : Nat) :
    (drive stallingNext (fun _ => ⟨200, [], 0⟩) getStream (fuel + 2)).sent =
      [.response 200 [], .frame (.data [1, 2])] := rfl

end H3

end Conduit
