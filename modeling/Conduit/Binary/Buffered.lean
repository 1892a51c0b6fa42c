import Conduit.Binary.Body

/-!
# The books of an in-memory body

`VecBody` answers from one queue which frame comes next, how many bytes are
left and whether the stream is over, and `Upstream::forward` skips collecting a
body that says it has none.  The number of bytes is a `usize` sum, which an
optimised build wraps.
-/

namespace Conduit

structure SizeHint where
  lower : Nat
  upper : Option Nat
  deriving DecidableEq, Repr

namespace SizeHint

def withExact (value : Nat) : SizeHint := ⟨value, some value⟩

def exact (hint : SizeHint) : Option Nat :=
  if hint.upper = some hint.lower then hint.upper else none

@[simp]
theorem exact_withExact (value : Nat) : (withExact value).exact = some value :=
  if_pos rfl

end SizeHint

namespace VecBody

def empty : VecBody := {}

def fromChunks (chunks : List (List UInt8)) : VecBody := { chunks := chunks }

def withTrailers (b : VecBody) (trailers : HeaderMap) : VecBody :=
  { b with trailers := some trailers }

def remaining (platform : Platform) (b : VecBody) : Nat :=
  b.chunks.foldl
    (fun sum chunk => (sum + chunk.length) % 2 ^ platform.usizeBits) 0

/-- The cast to `u64` truncates where a `usize` is wider. -/
def sizeHint (platform : Platform) (b : VecBody) : SizeHint :=
  .withExact (b.remaining platform % 2 ^ 64)

def isEndStream (b : VecBody) : Bool :=
  b.chunks.isEmpty && b.trailers.isNone

/-- `BodyExt::collect` and `to_bytes`: polls until the end, joins the data. -/
def collect : Nat → VecBody → Option (List UInt8)
  | 0, _ => none
  | fuel + 1, b =>
      match b.pollFrame with
      | (.ready (some (.ok (.data chunk))), b) => (b.collect fuel).map (chunk ++ ·)
      | (.ready (some (.ok (.trailers _))), b) => b.collect fuel
      | (.ready none, _) => some []
      | (.pending, _) => none

/-! ## A run of polls -/

def after (b : VecBody) : Nat → VecBody
  | 0 => b
  | n + 1 => b.pollFrame.2.after n

def results (b : VecBody) : Nat → List (Poll (Yield Empty Frame))
  | 0 => []
  | n + 1 => b.pollFrame.1 :: b.pollFrame.2.results n

def frames (b : VecBody) : List Frame :=
  b.chunks.map Frame.data ++ b.trailers.toList.map Frame.trailers

end VecBody

def Frame.bytes : Frame → List UInt8
  | .data bytes => bytes
  | .trailers _ => []

namespace VecBody

def dataLength (frames : List Frame) : Nat :=
  (frames.map fun frame => frame.bytes.length).sum

theorem pollFrame_result (b : VecBody) :
    b.pollFrame.1 = .ready (b.frames.head?.map .ok) := by
  obtain ⟨chunks, trailers⟩ := b
  cases chunks <;> cases trailers <;> rfl

theorem frames_pollFrame (b : VecBody) :
    b.pollFrame.2.frames = b.frames.tail := by
  obtain ⟨chunks, trailers⟩ := b
  cases chunks <;> cases trailers <;> rfl

theorem frames_after (b : VecBody) (n : Nat) :
    (b.after n).frames = b.frames.drop n := by
  induction n generalizing b with
  | zero => rfl
  | succ n ih => rw [after, ih, frames_pollFrame, List.drop_tail]

theorem results_eq (b : VecBody) (n : Nat) :
    b.results n =
      (b.frames.take n).map (fun frame => .ready (some (.ok frame))) ++
        List.replicate (n - b.frames.length) (.ready none) := by
  induction n generalizing b with
  | zero => simp [results]
  | succ n ih =>
      rw [results, ih, pollFrame_result, frames_pollFrame]
      cases b.frames with
      | nil => simp [List.replicate_succ]
      | cons frame frames => simp

theorem isEndStream_iff (b : VecBody) :
    b.isEndStream = true ↔ b.pollFrame.1 = .ready none := by
  obtain ⟨chunks, trailers⟩ := b
  cases chunks <;> cases trailers <;> simp [isEndStream, pollFrame]

theorem collect_eq {fuel : Nat} {b : VecBody} (h : b.frames.length < fuel) :
    b.collect fuel = some (b.frames.flatMap Frame.bytes) := by
  induction fuel generalizing b with
  | zero => omega
  | succ fuel ih =>
      obtain ⟨chunks, trailers⟩ := b
      cases chunks with
      | nil =>
          cases trailers with
          | none => rfl
          | some headers => exact ih (b := ⟨[], none⟩) (Nat.lt_of_succ_lt_succ h)
      | cons chunk chunks =>
          have hrest := ih (b := ⟨chunks, trailers⟩) (Nat.lt_of_succ_lt_succ h)
          change ((VecBody.mk chunks trailers).collect fuel).map (chunk ++ ·) = _
          rw [hrest]
          rfl

theorem foldl_wrapping_add (modulus start : Nat) (chunks : List (List UInt8)) :
    chunks.foldl (fun sum chunk => (sum + chunk.length) % modulus)
        (start % modulus) =
      (start + (chunks.map List.length).sum) % modulus := by
  induction chunks generalizing start with
  | nil => rfl
  | cons chunk chunks ih =>
      rw [List.foldl_cons, Nat.mod_add_mod, ih, List.map_cons, List.sum_cons,
        Nat.add_assoc]

theorem dataLength_frames (b : VecBody) :
    dataLength b.frames = (b.chunks.map List.length).sum := by
  obtain ⟨chunks, _ | headers⟩ := b <;>
    simp [dataLength, frames, Function.comp_def, Frame.bytes]

theorem remaining_eq (platform : Platform) (b : VecBody) :
    b.remaining platform = dataLength b.frames % 2 ^ platform.usizeBits := by
  have hfold := foldl_wrapping_add (2 ^ platform.usizeBits) 0 b.chunks
  rwa [Nat.zero_mod, Nat.zero_add, ← dataLength_frames] at hfold

theorem mod_mod_eq_self_iff {n a b : Nat} :
    n % 2 ^ a % 2 ^ b = n ↔ n < 2 ^ min a b := by
  constructor
  · intro h
    have ha : n < 2 ^ a := by
      have hle := Nat.mod_le (n % 2 ^ a) (2 ^ b)
      have hlt := Nat.mod_lt n (Nat.two_pow_pos a)
      omega
    have hb : n < 2 ^ b := by
      have hlt := Nat.mod_lt (n % 2 ^ a) (Nat.two_pow_pos b)
      omega
    rcases Nat.le_total a b with hab | hab <;> simp [hab, ha, hb]
  · intro h
    have ha : n < 2 ^ a :=
      Nat.lt_of_lt_of_le h (Nat.pow_le_pow_right (by omega) (Nat.min_le_left a b))
    have hb : n < 2 ^ b :=
      Nat.lt_of_lt_of_le h (Nat.pow_le_pow_right (by omega) (Nat.min_le_right a b))
    rw [Nat.mod_eq_of_lt ha, Nat.mod_eq_of_lt hb]

theorem sizeHint_exact_iff (platform : Platform) (b : VecBody) :
    (b.sizeHint platform).exact = some (dataLength b.frames) ↔
      dataLength b.frames < 2 ^ min platform.usizeBits 64 := by
  rw [sizeHint, SizeHint.exact_withExact, Option.some.injEq, remaining_eq,
    mod_mod_eq_self_iff]

theorem dataLength_drop_le (frames : List Frame) (n : Nat) :
    dataLength (frames.drop n) ≤ dataLength frames := by
  rw [dataLength, dataLength, List.map_drop]
  exact List.Sublist.sum_le_sum (List.drop_sublist n _) (by simp)

theorem flatMap_bytes_of_dataLength {frames : List Frame}
    (h : dataLength frames = 0) : frames.flatMap Frame.bytes = [] := by
  rw [List.flatMap_eq_nil_iff]
  intro frame hframe
  rw [dataLength, List.sum_eq_zero_iff] at h
  exact List.length_eq_zero_iff.mp (h _ (List.mem_map_of_mem hframe))

end VecBody

/-! ## Forwarding -/

theorem Upstream.forward_of_bufferBody {B : Type} {platform : Platform}
    {u : Upstream} {parts : RequestParts} {body body' : RequestBody}
    {readTimeout : Duration} {script : Script B}
    (h : Upstream.bufferBody body script.bodyStalls =
      Upstream.bufferBody body' script.bodyStalls) :
    u.forward platform ⟨parts, body⟩ readTimeout script =
      u.forward platform ⟨parts, body'⟩ readTimeout script := by
  simp only [Upstream.forward, Upstream.sendBuffered, h]

namespace VecBody

/-- What the four methods of the body say agrees after every number of polls. -/
structure KeepsBooks (platform : Platform) (b : VecBody) : Prop where
  results : ∀ n, b.results n =
    (b.frames.take n).map (fun frame => .ready (some (.ok frame))) ++
      List.replicate (n - b.frames.length) (.ready none)
  size : ∀ n, ((b.after n).sizeHint platform).exact =
    some (dataLength (b.frames.drop n))
  ends : ∀ n, (b.after n).isEndStream = true ↔
    (b.after n).pollFrame.1 = .ready none
  /-- Forwarding is as for a body of unknown size, which is always collected. -/
  forwards : ∀ n, ∃ bytes,
    (∃ enough, ∀ fuel, enough ≤ fuel → (b.after n).collect fuel = some bytes) ∧
    ∀ (B : Type) (u : Upstream) (parts : RequestParts) (readTimeout : Duration)
      (script : Script B), script.bodyStalls = false →
      u.forward platform
        ⟨parts, ⟨((b.after n).sizeHint platform).exact, .ok bytes⟩⟩
        readTimeout script =
      u.forward platform ⟨parts, ⟨none, .ok bytes⟩⟩ readTimeout script

theorem keepsBooks_iff (platform : Platform) (b : VecBody) :
    b.KeepsBooks platform ↔
      (b.chunks.map List.length).sum < 2 ^ min platform.usizeBits 64 := by
  rw [← dataLength_frames]
  constructor
  · intro h
    exact (sizeHint_exact_iff platform b).mp (h.size 0)
  · intro htotal
    have hsize : ∀ n, ((b.after n).sizeHint platform).exact =
        some (dataLength (b.frames.drop n)) := by
      intro n
      rw [← frames_after, sizeHint_exact_iff, frames_after]
      exact Nat.lt_of_le_of_lt (dataLength_drop_le b.frames n) htotal
    refine ⟨b.results_eq, hsize, fun n => (b.after n).isEndStream_iff, ?_⟩
    intro n
    refine ⟨(b.after n).frames.flatMap Frame.bytes,
      ⟨(b.after n).frames.length + 1, fun fuel hfuel => collect_eq hfuel⟩, ?_⟩
    intro B u parts readTimeout script hstalls
    apply Upstream.forward_of_bufferBody
    by_cases hempty : dataLength (b.frames.drop n) = 0
    · have hbytes : (b.after n).frames.flatMap Frame.bytes = [] := by
        rw [frames_after]
        exact flatMap_bytes_of_dataLength hempty
      simp [Upstream.bufferBody, hstalls, hbytes]
    · simp [Upstream.bufferBody, hstalls, hsize, hempty]

def clones (count length : Nat) : VecBody :=
  fromChunks (List.replicate count (List.replicate length 0))

theorem dataLength_clones (count length : Nat) :
    dataLength (clones count length).frames = count * length := by
  simp [dataLength_frames, clones, fromChunks]

/-- Chunks that share one allocation add up to a multiple of the modulus. -/
theorem wrapped_sum_hides_body :
    ((clones 4 (2 ^ 30)).sizeHint
        { Platform.concrete with usizeBits := 32 }).exact = some 0 ∧
    ((clones (2 ^ 24) (2 ^ 40)).sizeHint .concrete).exact = some 0 ∧
    ¬ (clones 4 (2 ^ 30)).KeepsBooks
        { Platform.concrete with usizeBits := 32 } ∧
    ¬ (clones (2 ^ 24) (2 ^ 40)).KeepsBooks .concrete := by
  have hexact : ∀ (platform : Platform) (count length : Nat),
      ((clones count length).sizeHint platform).exact =
        some (count * length % 2 ^ platform.usizeBits % 2 ^ 64) := by
    intro platform count length
    rw [sizeHint, SizeHint.exact_withExact, remaining_eq, dataLength_clones]
  have hbooks : ∀ (platform : Platform) (count length : Nat),
      2 ^ min platform.usizeBits 64 ≤ count * length →
      ¬ (clones count length).KeepsBooks platform := by
    intro platform count length hle h
    have hsize := (sizeHint_exact_iff platform (clones count length)).mp (h.size 0)
    rw [dataLength_clones] at hsize
    omega
  refine ⟨?_, ?_, hbooks _ _ _ ?_, hbooks _ _ _ ?_⟩
  · rw [hexact]
    rfl
  · rw [hexact]
    rfl
  · decide
  · decide

end VecBody

end Conduit
