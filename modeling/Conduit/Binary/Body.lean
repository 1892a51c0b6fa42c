import Conduit.Binary.Proxy
import Conduit.Protocol.H3

/-!
# Response bodies on an HTTP/3 stream

`ProxyBody` is a timed upstream body or a synthetic one.  The request reaches
the handler whole; of the response everything but the trailers reaches the
stream.
-/

namespace Conduit

/-! ## Frames of a body -/

def VecBody.pollFrame (b : VecBody) : Poll (Yield Empty Frame) × VecBody :=
  match b.chunks, b.trailers with
  | chunk :: rest, _ => (.ready (some (.ok (.data chunk))), { b with chunks := rest })
  | [], some trailers => (.ready (some (.ok (.trailers trailers))), { b with trailers := none })
  | [], none => (.ready none, b)

namespace ProxyBody

variable {B : Type}

/-- Await the next frame from `now` on, when the upstream body has one at `arrival`. -/
def next (b : ProxyBody B) (now : Nat) (arrival : Option (Nat × Yield String Frame)) :
    Option (Nat × Yield BodyError Frame × ProxyBody B) :=
  match b with
  | .upstream inner =>
      (inner.next now arrival).map fun (instant, yield, inner) =>
        (instant, yield, .upstream inner)
  | .synthetic inner =>
      match inner.pollFrame with
      | (.ready yield, inner) =>
          some (now, yield.map (Except.mapError Empty.elim), .synthetic inner)
      | (.pending, _) => none

end ProxyBody

/-- A body on its way: the upstream yields taken so far, and the instant of the last. -/
structure Streaming (B : Type) where
  body : ProxyBody B
  taken : Nat := 0
  now : Nat := 0

namespace Streaming

variable {B : Type}

/-- The upstream yields follow each other as `events` says, see `TimedBody.deliveries`. -/
def next (events : Nat → Option (Nat × Yield String Frame)) (s : Streaming B) :
    Option (Yield BodyError Frame × Streaming B) :=
  let arrival := (events s.taken).map fun e => (s.now + e.1, e.2)
  (s.body.next s.now arrival).map fun (instant, yield, body) =>
    (yield, ⟨body, s.taken + 1, instant⟩)

theorem produces_synthetic (events : Nat → Option (Nat × Yield String Frame))
    (b : VecBody) (taken now : Nat) :
    H3.Produces (next events) (⟨.synthetic b, taken, now⟩ : Streaming B)
      (b.chunks.map Frame.data ++ b.trailers.toList.map Frame.trailers) none := by
  obtain ⟨chunks, trailers⟩ := b
  induction chunks generalizing taken with
  | nil =>
      cases trailers with
      | none => exact .ends rfl
      | some headers => exact .yields rfl (.ends rfl)
  | cons chunk rest ih => exact .yields rfl (ih (taken + 1))

end Streaming

/-! ## The message on the stream -/

namespace H3

variable {B : Type}

/-- The handler got every slice in order, and the stream every frame. -/
def Carries (d : Driven BodyError) (req : BufferedRequest) (resp : Response (Streaming B))
    (frames : List Frame) (failure : Option BodyError) : Prop :=
  d.handled = some req ∧
  d.sent = Sent.response resp.status resp.headers :: frames.map Sent.frame ++
    if failure.isNone then [Sent.finish] else []

theorem filter_isData_eq_self_iff (frames : List Frame) :
    frames.filter Frame.isData = frames ↔ ∀ headers, Frame.trailers headers ∉ frames := by
  rw [List.filter_eq_self]
  constructor
  · intro h headers hmem
    cases h _ hmem
  · intro h frame hmem
    cases frame with
    | data bytes => rfl
    | trailers headers => exact absurd hmem (h headers)

/--
`drive_request` carries the message of any handler over whole exactly when the
response body has no trailers.
-/
theorem message_carried_iff (events : Nat → Option (Nat × Yield String Frame))
    (stream : Stream) (haccepts : ∀ n, stream.refuses n = none)
    (hrecv : stream.recvError = none) (parts : RequestParts)
    (hparts : stream.resolveRequest = .ok parts)
    (handler : BufferedRequest → Response (Streaming B)) (frames : List Frame)
    (failure : Option BodyError)
    (hproduces : Produces (Streaming.next events)
      (handler ⟨parts, stream.chunks.flatten.flatten⟩).body frames failure) :
    ∃ d, (∃ n, ∀ fuel, n ≤ fuel →
        driveRequest (Streaming.next events) handler stream fuel = some d) ∧
      (Carries d ⟨parts, stream.chunks.flatten.flatten⟩
          (handler ⟨parts, stream.chunks.flatten.flatten⟩) frames failure ↔
        ∀ headers, Frame.trailers headers ∉ frames) := by
  refine ⟨_, ⟨frames.length + 1, fun fuel hfuel =>
    driveRequest_of_produces haccepts hrecv hparts hproduces hfuel⟩, ?_⟩
  rw [← filter_isData_eq_self_iff]
  constructor
  · rintro ⟨-, hsent⟩
    have hframes := List.append_cancel_right (List.cons.inj hsent).2
    exact List.map_injective_iff.mpr (fun _ _ h => Sent.frame.inj h) hframes
  · intro hfilter
    exact ⟨rfl, by simp [hfilter, closing]⟩

def postParts : RequestParts where
  method := "POST"
  uri := ⟨none, none, some ⟨"/echo.Echo/Say", none⟩⟩
  version := .http3
  headers := []

def postStream : Stream where
  resolveRequest := .ok postParts
  chunks := [[[1], [2, 3]], [[], [4]]]
  recvError := none
  refuses _ := none

def chunkedResponse : Response (Streaming Unit) :=
  ⟨404, [], { body := .synthetic { chunks := [[10, 11], [12]] } }⟩

theorem message_carried_iff_sample :
    ∃ d, (∃ n, ∀ fuel, n ≤ fuel → driveRequest (Streaming.next fun _ => none)
        (fun _ => chunkedResponse) postStream fuel = some d) ∧
      d.handled = some ⟨postParts, [1, 2, 3, 4]⟩ ∧
      d.sent = [.response 404 [], .frame (.data [10, 11]), .frame (.data [12]), .finish] := by
  obtain ⟨d, hrun, hcarries⟩ := message_carried_iff (fun _ => none) postStream
    (fun _ => rfl) rfl postParts rfl (fun _ => chunkedResponse) _ none
    (Streaming.produces_synthetic _ { chunks := [[10, 11], [12]] } 0 0)
  obtain ⟨hhandled, hsent⟩ := hcarries.mpr (by simp)
  exact ⟨d, hrun, hhandled, hsent⟩

def grpcStatus : HeaderMap := [(⟨"grpc-status"⟩, ⟨[48]⟩)]

def unaryEvents : Nat → Option (Nat × Yield String Frame)
  | 0 => some (0, some (.ok (.data [7])))
  | 1 => some (0, some (.ok (.trailers grpcStatus)))
  | _ => some (0, none)

def unaryResponse : Response (Streaming Unit) :=
  ⟨200, [], { body := .upstream ⟨(), .fromSecs 30, none⟩ }⟩

theorem produces_unary :
    Produces (Streaming.next unaryEvents) unaryResponse.body
      [.data [7], .trailers grpcStatus] none :=
  .yields rfl (.yields rfl (.ends rfl))

theorem trailers_are_dropped :
    ¬ ∀ (events : Nat → Option (Nat × Yield String Frame)) (stream : Stream)
        (parts : RequestParts) (handler : BufferedRequest → Response (Streaming Unit))
        (frames : List Frame) (failure : Option BodyError),
      (∀ n, stream.refuses n = none) → stream.recvError = none →
      stream.resolveRequest = .ok parts →
      Produces (Streaming.next events)
        (handler ⟨parts, stream.chunks.flatten.flatten⟩).body frames failure →
      ∃ d, (∃ n, ∀ fuel, n ≤ fuel →
          driveRequest (Streaming.next events) handler stream fuel = some d) ∧
        Carries d ⟨parts, stream.chunks.flatten.flatten⟩
          (handler ⟨parts, stream.chunks.flatten.flatten⟩) frames failure := by
  intro h
  obtain ⟨d, ⟨n, hrun⟩, -, hsent⟩ := h unaryEvents postStream postParts
    (fun _ => unaryResponse) _ none (fun _ => rfl) rfl rfl produces_unary
  have hfuel : [Frame.data [7], .trailers grpcStatus].length < max n 3 := Nat.le_max_right n 3
  have hdriven : driveRequest (Streaming.next unaryEvents) (fun _ => unaryResponse) postStream
      (max n 3) = _ :=
    driveRequest_of_produces (fun _ => rfl) rfl rfl produces_unary hfuel
  rw [hrun _ (Nat.le_max_left n _)] at hdriven
  have hlength := congrArg List.length hsent
  rw [Option.some.inj hdriven] at hlength
  exact absurd hlength (by decide)

end H3

end Conduit
