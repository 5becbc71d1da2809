import AbixioUi.Types
import AbixioUi.Foundation.Lists
import AbixioUi.Foundation.Loops
import AbixioUi.Foundation.Reads
import Mathlib.Algebra.Order.Floor.Div

/-! # Multipart uploads

A file above the threshold goes up in parts. Each part is filled by reads that may come
short, and the next one starts where it ended. The loop counts down the size that the
file had when its metadata was read.
-/

namespace AbixioUi.Multipart

open Foundation

def MULTIPART_THRESHOLD : Nat := 8 * 1024 * 1024
def MULTIPART_PART_SIZE : Nat := 8 * 1024 * 1024

/-! ## Filling a part -/

/-- The bytes of a file as its reads will give them. -/
abbrev FileReads := Reads String UInt8

/-- Read until the part is full or a read comes back empty. The buffer holds the bytes
read so far, which is what is left of it when it is truncated. -/
def fillBuffer (chunkSize : Nat) (buf : List UInt8) (file : FileReads) :
    Except String (List UInt8 × FileReads) :=
  if buf.length < chunkSize then
    match file.read (chunkSize - buf.length) with
    | .error error => .error error
    | .ok (bytes, file) =>
        if bytes = [] then .ok (buf, file) else fillBuffer chunkSize (buf ++ bytes) file
  else .ok (buf, file)
termination_by chunkSize - buf.length
decreasing_by
  rename_i hbytes
  have hpos := List.length_pos_iff.mpr hbytes
  rw [List.length_append]
  omega

section

variable {file next : FileReads} {buf bytes : List UInt8} {chunkSize : Nat}

theorem fillBuffer_full (hfull : chunkSize ≤ buf.length) (file : FileReads) :
    fillBuffer chunkSize buf file = .ok (buf, file) := by
  rw [fillBuffer, if_neg (Nat.not_lt_of_le hfull)]

theorem fillBuffer_failed {error : String} (hroom : buf.length < chunkSize)
    (hread : file.read (chunkSize - buf.length) = .error error) :
    fillBuffer chunkSize buf file = .error error := by
  rw [fillBuffer, if_pos hroom, hread]

theorem fillBuffer_stopped (hroom : buf.length < chunkSize)
    (hread : file.read (chunkSize - buf.length) = .ok ([], next)) :
    fillBuffer chunkSize buf file = .ok (buf, next) := by
  rw [fillBuffer, if_pos hroom, hread]
  exact if_pos rfl

theorem fillBuffer_more (hroom : buf.length < chunkSize)
    (hread : file.read (chunkSize - buf.length) = .ok (bytes, next)) (hbytes : bytes ≠ []) :
    fillBuffer chunkSize buf file = fillBuffer chunkSize (buf ++ bytes) next := by
  rw [fillBuffer, if_pos hroom, hread]
  exact if_neg hbytes

end

/-! ## The loop over the parts -/

structure CompletedPart where
  eTag : Str
  partNumber : Int32
deriving DecidableEq, Repr

structure UploadPartRequest where
  partNumber : Int32
  body : List UInt8
deriving DecidableEq, Repr

/-- What the server answers to the parts: the entity tag, which may be missing. -/
abbrev PartReplies := Stream' (Except String (Option Str))

/-- The variables of the loop, with the parts sent so far and the replies to come. -/
structure PartLoop where
  file : FileReads
  replies : PartReplies
  remaining : Nat
  partNumber : Int32
  parts : List CompletedPart
  sent : List UploadPartRequest

structure PartsOutcome where
  result : Except String (List CompletedPart)
  sent : List UploadPartRequest

/-- The variables after a part has gone up. -/
def PartLoop.uploaded (state : PartLoop) (buf : List UInt8) (file : FileReads)
    (eTag : Option Str) : PartLoop where
  file := file
  replies := state.replies.tail
  remaining := state.remaining - buf.length
  partNumber := state.partNumber + 1
  parts := state.parts ++ [⟨eTag.getD [], state.partNumber⟩]
  sent := state.sent ++ [⟨state.partNumber, buf⟩]

/-- The length of the next part. -/
def PartLoop.chunkSize (state : PartLoop) : Nat := min state.remaining MULTIPART_PART_SIZE

def PartLoop.body (state : PartLoop) : PartLoop ⊕ PartsOutcome :=
  if 0 < state.remaining then
    match fillBuffer state.chunkSize [] state.file with
    | .error error => .inr ⟨.error error, state.sent⟩
    | .ok (buf, file) =>
        match state.replies.head with
        | .error error => .inr ⟨.error error, state.sent ++ [⟨state.partNumber, buf⟩]⟩
        | .ok eTag => .inl (state.uploaded buf file eTag)
  else .inr ⟨.ok state.parts, state.sent⟩

def PartLoop.start (file : FileReads) (replies : PartReplies) (size : Nat) : PartLoop where
  file := file
  replies := replies
  remaining := size
  partNumber := 1
  parts := []
  sent := []

def uploadParts (opened : Except String FileReads) (replies : PartReplies) (size fuel : Nat) :
    Option PartsOutcome :=
  match opened with
  | .error error => some ⟨.error error, []⟩
  | .ok file => loop PartLoop.body fuel (.start file replies size)

/-! ## One round of the loop -/

section

variable {state : PartLoop} {next : FileReads} {buf : List UInt8}

/-- How a round ends. -/
inductive PartLoop.Round (state : PartLoop) : PartLoop ⊕ PartsOutcome → Prop
  | unread {error : String} (remaining : 0 < state.remaining)
      (fill : fillBuffer state.chunkSize [] state.file = .error error) :
      Round state (.inr ⟨.error error, state.sent⟩)
  | refused {error : String} {buf : List UInt8} {next : FileReads}
      (remaining : 0 < state.remaining)
      (fill : fillBuffer state.chunkSize [] state.file = .ok (buf, next))
      (reply : state.replies.head = .error error) :
      Round state (.inr ⟨.error error, state.sent ++ [⟨state.partNumber, buf⟩]⟩)
  | uploaded {buf : List UInt8} {next : FileReads} {eTag : Option Str}
      (remaining : 0 < state.remaining)
      (fill : fillBuffer state.chunkSize [] state.file = .ok (buf, next))
      (reply : state.replies.head = .ok eTag) :
      Round state (.inl (state.uploaded buf next eTag))
  | done (remaining : state.remaining = 0) : Round state (.inr ⟨.ok state.parts, state.sent⟩)

theorem body_refused {error : String} (hremaining : 0 < state.remaining)
    (hfill : fillBuffer state.chunkSize [] state.file = .ok (buf, next))
    (hreply : state.replies.head = .error error) :
    state.body = .inr ⟨.error error, state.sent ++ [⟨state.partNumber, buf⟩]⟩ := by
  simp only [PartLoop.body, if_pos hremaining, hfill, hreply]

theorem body_uploaded {eTag : Option Str} (hremaining : 0 < state.remaining)
    (hfill : fillBuffer state.chunkSize [] state.file = .ok (buf, next))
    (hreply : state.replies.head = .ok eTag) :
    state.body = .inl (state.uploaded buf next eTag) := by
  simp only [PartLoop.body, if_pos hremaining, hfill, hreply]

theorem body_done (hremaining : state.remaining = 0) :
    state.body = .inr ⟨.ok state.parts, state.sent⟩ := by
  rw [PartLoop.body, if_neg (by omega)]

theorem PartLoop.body_spec (state : PartLoop) : state.Round state.body := by
  by_cases hremaining : 0 < state.remaining
  · cases hfill : fillBuffer state.chunkSize [] state.file with
    | error error =>
        rw [PartLoop.body, if_pos hremaining, hfill]
        exact .unread hremaining hfill
    | ok pulled =>
        cases hreply : state.replies.head with
        | error error =>
            rw [body_refused hremaining hfill hreply]
            exact .refused hremaining hfill hreply
        | ok eTag =>
            rw [body_uploaded hremaining hfill hreply]
            exact .uploaded hremaining hfill hreply
  · have hzero : state.remaining = 0 := by omega
    rw [body_done hzero]
    exact .done hzero

/-- The one way that a round goes on. -/
theorem body_go {after : PartLoop} (hbody : state.body = .inl after) :
    ∃ buf next eTag, 0 < state.remaining ∧
      fillBuffer state.chunkSize [] state.file = .ok (buf, next) ∧
      state.replies.head = .ok eTag ∧ after = state.uploaded buf next eTag := by
  have hround := state.body_spec
  rw [hbody] at hround
  cases hround with
  | uploaded remaining fill reply => exact ⟨_, _, _, remaining, fill, reply, rfl⟩

/-- The loop leaves with parts only when nothing remains. -/
theorem body_leave {outcome : PartsOutcome} {parts : List CompletedPart}
    (hbody : state.body = .inr outcome) (hparts : outcome.result = .ok parts) :
    state.remaining = 0 ∧ outcome = ⟨.ok state.parts, state.sent⟩ := by
  have hround := state.body_spec
  rw [hbody] at hround
  cases hround with
  | unread remaining fill => cases hparts
  | refused remaining fill reply => cases hparts
  | done remaining => exact ⟨remaining, rfl⟩

theorem PartLoop.chunkSize_pos (hremaining : 0 < state.remaining) : 0 < state.chunkSize := by
  have hpos : 0 < MULTIPART_PART_SIZE := by decide
  rw [PartLoop.chunkSize]
  omega

end

/-! ## A file that does not change -/

variable {file : FileReads} {buf content : List UInt8} {chunkSize i : Nat}
  {eTags : Stream' (Option Str)} {state : PartLoop}

/-- However short the reads come, the part is the front of what is left. -/
theorem fillBuffer_delivers (h : file.Delivers content) (hroom : buf.length ≤ chunkSize) :
    ∃ next, fillBuffer chunkSize buf file =
        .ok (buf ++ content.take (chunkSize - buf.length), next) ∧
      next.Delivers (content.drop (chunkSize - buf.length)) := by
  induction hm : chunkSize - buf.length using Nat.strongRecOn generalizing buf content file with
  | ind m ih =>
      by_cases hfull : buf.length < chunkSize
      · obtain ⟨bytes, rest, next, hread, rfl, hnext, hend⟩ :=
          h.read (Nat.sub_pos_of_lt hfull)
        have hle := Reads.length_read_le hread
        by_cases hbytes : bytes = []
        · have hrest : rest = [] := (List.append_eq_nil_iff.mp (hend hbytes)).2
          rw [hbytes] at hread
          rw [hrest] at hnext
          rw [fillBuffer_stopped hfull hread]
          exact ⟨next, by simp [hbytes, hrest], by simpa [hbytes, hrest] using hnext⟩
        · have hpos := List.length_pos_iff.mpr hbytes
          have hlength : (buf ++ bytes).length = buf.length + bytes.length :=
            List.length_append
          obtain ⟨last, hfill, hlast⟩ := ih (chunkSize - (buf ++ bytes).length) (by omega)
            hnext (by omega) rfl
          have hsplit : m = bytes.length + (chunkSize - (buf ++ bytes).length) := by omega
          rw [fillBuffer_more hfull hread hbytes, hfill, hsplit]
          refine ⟨last, ?_, ?_⟩
          · rw [List.take_length_add_append, List.append_assoc]
          · rw [List.drop_length_add_append]
            exact hlast
      · have hzero : m = 0 := by omega
        rw [fillBuffer_full (Nat.le_of_not_lt hfull), hzero]
        exact ⟨file, by simp, h⟩

/-- The part sent in round `i`, and what it is completed with. -/
def sentPart (content : List UInt8) (i : Nat) : UploadPartRequest :=
  ⟨Int32.ofNat (i + 1), piece MULTIPART_PART_SIZE content i⟩

def completedPart (eTags : Stream' (Option Str)) (i : Nat) : CompletedPart :=
  ⟨(eTags.get i).getD [], Int32.ofNat (i + 1)⟩

/-- The loop after `i` parts. -/
structure AfterParts (content : List UInt8) (eTags : Stream' (Option Str)) (i : Nat)
    (state : PartLoop) : Prop where
  file : state.file.Delivers (content.drop (i * MULTIPART_PART_SIZE))
  replies : state.replies = (eTags.drop i).map Except.ok
  remaining : state.remaining = content.length - i * MULTIPART_PART_SIZE
  partNumber : state.partNumber = Int32.ofNat (i + 1)
  parts : state.parts = (List.range i).map (completedPart eTags)
  sent : state.sent = (List.range i).map (sentPart content)

theorem afterParts_start (h : file.Delivers content) (eTags : Stream' (Option Str)) :
    AfterParts content eTags 0 (.start file (eTags.map Except.ok) content.length) where
  file := by
    show file.Delivers (content.drop (0 * MULTIPART_PART_SIZE))
    rw [Nat.zero_mul, List.drop_zero]
    exact h
  replies := rfl
  remaining := by simp [PartLoop.start]
  partNumber := rfl
  parts := rfl
  sent := rfl

/-- While something remains a round sends the next piece. -/
theorem AfterParts.go (h : AfterParts content eTags i state)
    (hmore : i * MULTIPART_PART_SIZE < content.length) :
    ∃ next, state.body = .inl next ∧ AfterParts content eTags (i + 1) next := by
  have hremaining : 0 < state.remaining := by
    rw [h.remaining]
    omega
  have hroom : ([] : List UInt8).length ≤ state.chunkSize := Nat.zero_le _
  obtain ⟨file, hfill, hfile⟩ := fillBuffer_delivers h.file hroom
  have hchunk : state.chunkSize = min (content.length - i * MULTIPART_PART_SIZE)
      MULTIPART_PART_SIZE := by
    rw [PartLoop.chunkSize, h.remaining]
  have hlength := length_piece MULTIPART_PART_SIZE content i
  rw [List.nil_append, List.length_nil, Nat.sub_zero, hchunk, take_left_eq_piece,
    ← hchunk] at hfill
  rw [List.length_nil, Nat.sub_zero, hchunk, drop_left_eq_drop] at hfile
  have hreply : state.replies.head = .ok (eTags.get i) := by
    rw [h.replies]
    show Except.ok (eTags.get (0 + i)) = _
    rw [Nat.zero_add]
  refine ⟨_, body_uploaded hremaining hfill hreply, hfile, ?_, ?_, ?_, ?_, ?_⟩
  · show state.replies.tail = _
    rw [h.replies, Stream'.tail_map, Stream'.tail_drop']
  · show state.remaining - _ = _
    rw [h.remaining, hlength, Nat.succ_mul]
    omega
  · show state.partNumber + 1 = _
    rw [h.partNumber]
    exact (Int32.ofNat_add (i + 1) 1).symm
  · show state.parts ++ _ = _
    rw [h.parts, h.partNumber, List.range_succ, List.map_append]
    rfl
  · show state.sent ++ _ = _
    rw [h.sent, h.partNumber, List.range_succ, List.map_append]
    rfl

/-- When nothing remains the loop leaves with all parts. -/
theorem AfterParts.leave (h : AfterParts content eTags i state)
    (hdone : content.length ≤ i * MULTIPART_PART_SIZE) :
    state.body = .inr ⟨.ok ((List.range i).map (completedPart eTags)),
      (List.range i).map (sentPart content)⟩ := by
  have hremaining : state.remaining = 0 := by
    rw [h.remaining]
    omega
  rw [body_done hremaining, h.parts, h.sent]

/-- The number of parts of a file of this size. -/
def partCount (size : Nat) : Nat := size ⌈/⌉ MULTIPART_PART_SIZE

theorem partCount_le_iff (size i : Nat) :
    partCount size ≤ i ↔ size ≤ i * MULTIPART_PART_SIZE := by
  have hpos : 0 < MULTIPART_PART_SIZE := by decide
  rw [Nat.mul_comm]
  exact ceilDiv_le_iff_le_mul hpos

theorem lt_of_lt_partCount {size : Nat} (h : i < partCount size) :
    i * MULTIPART_PART_SIZE < size := by
  rw [← Nat.not_le, partCount_le_iff] at h
  omega

/-- However the reads come, the loop sends the pieces of the content one by one. -/
theorem uploadParts_delivers (h : file.Delivers content) (eTags : Stream' (Option Str))
    {fuel : Nat} (hfuel : partCount content.length < fuel) :
    uploadParts (.ok file) (eTags.map Except.ok) content.length fuel =
      some ⟨.ok ((List.range (partCount content.length)).map (completedPart eTags)),
        (List.range (partCount content.length)).map (sentPart content)⟩ := by
  have hgo : ∀ m state next,
      (∃ i, AfterParts content eTags i state ∧ i + m = partCount content.length) →
        state.body = .inl next →
          ∃ m' < m, ∃ i, AfterParts content eTags i next ∧
            i + m' = partCount content.length := by
    rintro m state next ⟨i, hafter, hcount⟩ hbody
    by_cases hmore : i * MULTIPART_PART_SIZE < content.length
    · obtain ⟨next', hbody', hafter'⟩ := hafter.go hmore
      rw [hbody] at hbody'
      cases hbody'
      have hlt : ¬ partCount content.length ≤ i := by
        rw [partCount_le_iff]
        omega
      exact ⟨m - 1, by omega, i + 1, hafter', by omega⟩
    · rw [hafter.leave (Nat.le_of_not_lt hmore)] at hbody
      cases hbody
  have hleave : ∀ m state outcome,
      (∃ i, AfterParts content eTags i state ∧ i + m = partCount content.length) →
        state.body = .inr outcome →
          outcome =
            ⟨.ok ((List.range (partCount content.length)).map (completedPart eTags)),
              (List.range (partCount content.length)).map (sentPart content)⟩ := by
    rintro m state outcome ⟨i, hafter, hcount⟩ hbody
    by_cases hmore : i * MULTIPART_PART_SIZE < content.length
    · obtain ⟨next, hnext, -⟩ := hafter.go hmore
      rw [hnext] at hbody
      cases hbody
    · have hdone := Nat.le_of_not_lt hmore
      have hi : i = partCount content.length := by
        have hle := (partCount_le_iff content.length i).mpr hdone
        omega
      rw [hafter.leave hdone, hi] at hbody
      exact (Sum.inr.inj hbody).symm
  obtain ⟨outcome, hends, rfl⟩ := loop_ends _ _ hgo hleave
    ⟨0, afterParts_start h eTags, Nat.zero_add _⟩
  exact hends fuel hfuel

/-- The parts are the content cut up in order, and they are completed under the numbers
they were sent with. The numbers are those of a counter of 32 bits. -/
structure Reassembled (content : List UInt8) (eTags : Stream' (Option Str))
    (parts : List CompletedPart) (sent : List UploadPartRequest) : Prop where
  count : sent.length = partCount content.length
  content_eq : (sent.map (·.body)).flatten = content
  full : ∀ part ∈ sent.dropLast, part.body.length = MULTIPART_PART_SIZE
  last : ∀ part ∈ sent.getLast?,
    1 ≤ part.body.length ∧ part.body.length ≤ MULTIPART_PART_SIZE
  numbers : sent.map (·.partNumber) =
    (List.range (partCount content.length)).map fun i => Int32.ofNat (i + 1)
  gapless_iff : sent.map (·.partNumber.toInt) =
      (List.range (partCount content.length)).map (fun i : Nat => (i : Int) + 1) ↔
    partCount content.length < 2 ^ 31
  completed : parts.map (·.partNumber) = sent.map (·.partNumber)
  eTags_eq : parts.map (·.eTag) =
    (List.range (partCount content.length)).map fun i => (eTags.get i).getD []

theorem partNumbers_gapless_iff (n : Nat) :
    (List.range n).map (fun i => (Int32.ofNat (i + 1)).toInt) =
      (List.range n).map (fun i : Nat => (i : Int) + 1) ↔ n < 2 ^ 31 := by
  rw [List.map_inj_left]
  simp only [List.mem_range]
  constructor
  · intro h
    by_contra hle
    have hwrapped : (Int32.ofNat (2 ^ 31 - 1 + 1)).toInt = -(2 ^ 31) := by decide
    have hlast := h (2 ^ 31 - 1) (by omega)
    rw [hwrapped] at hlast
    omega
  · intro hn i hi
    rw [Int32.toInt_ofNat_of_lt (by omega)]
    rfl

/-- A part that another one follows is full. -/
theorem length_sentPart_of_next (h : i + 1 < partCount content.length) :
    (sentPart content i).body.length = MULTIPART_PART_SIZE := by
  have hnext : (i + 1) * MULTIPART_PART_SIZE < content.length := lt_of_lt_partCount h
  rw [Nat.succ_mul] at hnext
  show (piece MULTIPART_PART_SIZE content i).length = MULTIPART_PART_SIZE
  rw [length_piece]
  omega

theorem length_sentPart_bounds (h : i < partCount content.length) :
    1 ≤ (sentPart content i).body.length ∧
      (sentPart content i).body.length ≤ MULTIPART_PART_SIZE := by
  have hpart : i * MULTIPART_PART_SIZE < content.length := lt_of_lt_partCount h
  have hpos : 0 < MULTIPART_PART_SIZE := by decide
  show 1 ≤ (piece MULTIPART_PART_SIZE content i).length ∧ _
  rw [sentPart, length_piece]
  omega

theorem reassembled_pieces (content : List UInt8) (eTags : Stream' (Option Str)) :
    Reassembled content eTags
      ((List.range (partCount content.length)).map (completedPart eTags))
      ((List.range (partCount content.length)).map (sentPart content)) where
  count := by rw [List.length_map, List.length_range]
  content_eq := by
    rw [List.map_map]
    show ((List.range _).map (piece MULTIPART_PART_SIZE content)).flatten = content
    rw [flatten_pieces, List.take_of_length_le ((partCount_le_iff _ _).mp (Nat.le_refl _))]
  full := by
    intro part hpart
    obtain ⟨i, hi, rfl⟩ := mem_dropLast_map_range hpart
    exact length_sentPart_of_next hi
  last := by
    intro part hpart
    obtain ⟨i, hi, rfl⟩ := mem_getLast?_map_range hpart
    exact length_sentPart_bounds (by omega)
  numbers := by
    rw [List.map_map]
    rfl
  gapless_iff := by
    rw [List.map_map]
    exact partNumbers_gapless_iff _
  completed := by
    rw [List.map_map, List.map_map]
    rfl
  eTags_eq := by
    rw [List.map_map]
    rfl

/-- However short the reads come, the parts reassemble to the content of the file. -/
theorem uploadParts_reassembles (chunks : List (List UInt8)) (eTags : Stream' (Option Str))
    (hchunks : ∀ chunk ∈ chunks, chunk ≠ []) :
    ∃ parts sent,
      (∀ fuel, partCount chunks.flatten.length < fuel →
        uploadParts (.ok (Reads.ofChunks chunks)) (eTags.map Except.ok) chunks.flatten.length
          fuel = some ⟨.ok parts, sent⟩) ∧
      Reassembled chunks.flatten eTags parts sent :=
  ⟨_, _, fun _ hfuel => uploadParts_delivers (Reads.delivers_ofChunks hchunks) eTags hfuel,
    reassembled_pieces _ eTags⟩

/-- A file one byte above the threshold, read as one chunk and one byte. -/
def aboveThreshold : List (List UInt8) := [List.replicate MULTIPART_THRESHOLD 0, [1]]

theorem aboveThreshold_ne_nil : ∀ chunk ∈ aboveThreshold, chunk ≠ [] := by
  intro chunk hchunk
  rcases List.mem_pair.mp hchunk with rfl | rfl
  · exact List.ne_nil_of_length_pos (by rw [List.length_replicate]; decide)
  · exact List.cons_ne_nil _ _

theorem uploadParts_reassembles_two :
    ∃ parts sent,
      (∀ fuel, partCount aboveThreshold.flatten.length < fuel →
        uploadParts (.ok (Reads.ofChunks aboveThreshold))
          ((Stream'.const (some ['e'])).map Except.ok) aboveThreshold.flatten.length
            fuel = some ⟨.ok parts, sent⟩) ∧
      Reassembled aboveThreshold.flatten (Stream'.const (some ['e'])) parts sent :=
  uploadParts_reassembles aboveThreshold (Stream'.const (some ['e'])) aboveThreshold_ne_nil

/-- A file of `2 ^ 31` parts. -/
def tooManyParts : List UInt8 := List.replicate (2 ^ 31 * MULTIPART_PART_SIZE) 0

/-- Its last part is sent under a negative number. -/
theorem uploadParts_number_wraps :
    ∃ fuel parts sent,
      uploadParts (.ok (Reads.ofChunks [tooManyParts]))
          ((Stream'.const none).map Except.ok) tooManyParts.length fuel =
        some ⟨.ok parts, sent⟩ ∧
      sent.length = 2 ^ 31 ∧
      sent.map (·.partNumber.toInt) ≠ (List.range (2 ^ 31)).map fun i : Nat => (i : Int) + 1 := by
  have hlength : tooManyParts.length = 2 ^ 31 * MULTIPART_PART_SIZE := List.length_replicate
  have hcount : partCount tooManyParts.length = 2 ^ 31 := by
    rw [hlength]
    decide
  have hdelivers : (Reads.ofChunks [tooManyParts] : FileReads).Delivers tooManyParts := by
    refine ⟨[tooManyParts], ?_, List.append_nil _, rfl⟩
    intro chunk hchunk
    rw [List.mem_singleton.mp hchunk]
    exact List.ne_nil_of_length_pos (by rw [hlength]; decide)
  have hpieces := reassembled_pieces tooManyParts (Stream'.const none)
  have hgapless := hpieces.gapless_iff
  refine ⟨_, _, _, uploadParts_delivers hdelivers (Stream'.const none)
    (Nat.lt_succ_self _), ?_, ?_⟩
  · rw [hpieces.count, hcount]
  · rw [← hcount, Ne, hgapless, hcount]
    exact Nat.lt_irrefl _

/-! ## A file that comes short -/

variable {next : FileReads} {k n : Nat}

/-- Filling a part gets closer to what the reads bring. -/
theorem fillBuffer_brings {filled : List UInt8}
    (h : Reads.BringsWithin k file (n - buf.length)) (hroom : buf.length ≤ chunkSize)
    (hn : chunkSize ≤ n) (hfill : fillBuffer chunkSize buf file = .ok (filled, next)) :
    ∃ k', Reads.BringsWithin k' next (n - filled.length) ∧ filled.length ≤ chunkSize ∧
      k' + buf.length ≤ k + filled.length ∧
      (buf.length < chunkSize → k' + buf.length < k + filled.length) := by
  induction hm : chunkSize - buf.length using Nat.strongRecOn generalizing buf file k with
  | ind m ih =>
      by_cases hfull : buf.length < chunkSize
      · cases hread : file.read (chunkSize - buf.length) with
        | error error =>
            rw [fillBuffer_failed hfull hread] at hfill
            cases hfill
        | ok pulled =>
            obtain ⟨bytes, file'⟩ := pulled
            obtain ⟨k', hk', hless, -⟩ := h.read (by omega) (by omega) hread
            have hle := Reads.length_read_le hread
            have hlength : (buf ++ bytes).length = buf.length + bytes.length :=
              List.length_append
            rw [Nat.sub_sub, ← hlength] at hk'
            by_cases hbytes : bytes = []
            · rw [hbytes] at hread hlength
              rw [hbytes, List.append_nil] at hk'
              rw [hbytes, List.length_nil] at hless
              rw [fillBuffer_stopped hfull hread] at hfill
              cases hfill
              exact ⟨k', hk', hroom, by omega, fun _ => by omega⟩
            · rw [fillBuffer_more hfull hread hbytes] at hfill
              have hpos := List.length_pos_iff.mpr hbytes
              obtain ⟨k'', hk'', hbound, hsum, -⟩ := ih (chunkSize - (buf ++ bytes).length)
                (by omega) hk' (by omega) hfill rfl
              exact ⟨k'', hk'', hbound, by omega, fun _ => by omega⟩
      · rw [fillBuffer_full (Nat.le_of_not_lt hfull)] at hfill
        cases hfill
        exact ⟨k, h, hroom, Nat.le_refl _, fun hlt => absurd hlt hfull⟩

/-- Where the reads do not bring enough, filling a part does not fail, and does not
change that. -/
theorem fillBuffer_short (h : ¬ file.Brings (n - buf.length)) :
    ∃ filled next, fillBuffer chunkSize buf file = .ok (filled, next) ∧
      ¬ next.Brings (n - filled.length) := by
  induction hm : chunkSize - buf.length using Nat.strongRecOn generalizing buf file with
  | ind m ih =>
      by_cases hfull : buf.length < chunkSize
      · obtain ⟨bytes, file', hread, hshort⟩ :=
          Reads.read_of_not_brings h (chunkSize - buf.length)
        have hlength : (buf ++ bytes).length = buf.length + bytes.length :=
          List.length_append
        rw [Nat.sub_sub, ← hlength] at hshort
        by_cases hbytes : bytes = []
        · rw [hbytes] at hread
          rw [hbytes, List.append_nil] at hshort
          exact ⟨buf, file', fillBuffer_stopped hfull hread, hshort⟩
        · have hpos := List.length_pos_iff.mpr hbytes
          rw [fillBuffer_more hfull hread hbytes]
          exact ih (chunkSize - (buf ++ bytes).length) (by omega) hshort rfl
      · exact ⟨buf, file, fillBuffer_full (Nat.le_of_not_lt hfull) file, h⟩

/-- Every upload of a part succeeds. -/
def Served (replies : PartReplies) : Prop := ∀ i, ∃ eTag, replies.get i = .ok eTag

/-- The bytes of the parts sent. -/
def sentBytes (sent : List UploadPartRequest) : Nat := (sent.map (·.body.length)).sum

/-- The loop may still end: the reads bring what remains within `k` reads. -/
structure Ending (size m : Nat) (state : PartLoop) : Prop where
  sent : sentBytes state.sent + state.remaining = size
  brings : ∃ k, Reads.BringsWithin k state.file state.remaining ∧ m = k + state.remaining

theorem Served.tail {replies : PartReplies} (h : Served replies) : Served replies.tail :=
  fun i => h (i + 1)

/-- A round that goes on gets closer to the end. -/
theorem Ending.go {size m : Nat} {after : PartLoop} (h : Ending size m state)
    (hbody : state.body = .inl after) : ∃ m' < m, Ending size m' after := by
  obtain ⟨k, hk, rfl⟩ := h.brings
  obtain ⟨buf, next, eTag, hremaining, hfill, -, rfl⟩ := body_go hbody
  have hchunk : state.chunkSize ≤ state.remaining := Nat.min_le_left _ _
  have hroom : ([] : List UInt8).length ≤ state.chunkSize := Nat.zero_le _
  obtain ⟨k', hk', hbound, -, hless⟩ := fillBuffer_brings hk hroom hchunk hfill
  have hstrict := hless (PartLoop.chunkSize_pos hremaining)
  rw [List.length_nil] at hstrict
  refine ⟨k' + (state.remaining - buf.length), by omega, ?_, k', hk', rfl⟩
  have hsent := h.sent
  show sentBytes (state.sent ++ [⟨state.partNumber, buf⟩]) +
    (state.remaining - buf.length) = size
  simp only [sentBytes, List.map_append, List.sum_append, List.map_singleton,
    List.sum_singleton] at hsent ⊢
  omega

/-- A round that leaves with parts has sent the whole size. -/
theorem Ending.leave {size m : Nat} {outcome : PartsOutcome} (h : Ending size m state)
    (hbody : state.body = .inr outcome) :
    ∀ parts, outcome.result = .ok parts → sentBytes outcome.sent = size := by
  intro parts hparts
  obtain ⟨hzero, rfl⟩ := body_leave hbody hparts
  have hsent := h.sent
  show sentBytes state.sent = size
  omega

/-- Where the reads do not bring the size the loop uploads empty parts forever. -/
theorem uploadParts_hangs {size : Nat} (h : ¬ file.Brings size)
    {replies : PartReplies} (hserved : Served replies) (fuel : Nat) :
    uploadParts (.ok file) replies size fuel = none := by
  apply loop_diverges fun state : PartLoop =>
    Served state.replies ∧ ¬ state.file.Brings state.remaining
  · rintro state ⟨hserved, hshort⟩
    have hremaining : 0 < state.remaining := by
      apply Nat.pos_of_ne_zero
      intro hzero
      exact hshort ⟨0, .inl (by rw [hzero]; exact Nat.zero_le _)⟩
    obtain ⟨eTag, hreply⟩ := hserved 0
    have hshort : ¬ state.file.Brings (state.remaining - ([] : List UInt8).length) := hshort
    obtain ⟨buf, next, hfill, hnext⟩ := fillBuffer_short hshort
    exact ⟨_, body_uploaded hremaining hfill hreply, hserved.tail, hnext⟩
  · exact ⟨hserved, h⟩

theorem uploadParts_ends {size : Nat} (h : file.Brings size) (replies : PartReplies) :
    ∃ fuel outcome, uploadParts (.ok file) replies size fuel = some outcome ∧
      ∀ parts, outcome.result = .ok parts → sentBytes outcome.sent = size := by
  obtain ⟨k, hk⟩ := (Reads.brings_iff file size).mp h
  obtain ⟨outcome, hends, hpost⟩ := loop_ends (Ending size) _
    (fun m state next => Ending.go) (fun m state outcome => Ending.leave)
    (s := .start file replies size) ⟨Nat.zero_add size, k, hk, rfl⟩
  exact ⟨_, outcome, hends _ (Nat.lt_succ_self _), hpost⟩

/-- A part that does not go up ends the loop. -/
theorem uploadParts_refused {replies : PartReplies} {error : String}
    (h : replies.get i = .error error) (file : FileReads) (size : Nat) :
    ∃ fuel outcome, uploadParts (.ok file) replies size fuel = some outcome := by
  have hgo : ∀ m (state after : PartLoop), state.replies.get m = .error error →
      state.body = .inl after → ∃ m' < m, after.replies.get m' = .error error := by
    intro m state after hrefused hbody
    obtain ⟨buf, next, eTag, -, -, hreply, rfl⟩ := body_go hbody
    cases m with
    | zero =>
        have hhead : state.replies.head = .error error := hrefused
        rw [hreply] at hhead
        cases hhead
    | succ m => exact ⟨m, Nat.lt_succ_self m, hrefused⟩
  obtain ⟨outcome, hends, -⟩ := loop_ends _ (fun _ => True) hgo
    (fun _ _ _ _ _ => trivial) (s := .start file replies size) h
  exact ⟨_, outcome, hends _ (Nat.lt_succ_self _)⟩

theorem uploadParts_some_iff (file : FileReads) (replies : PartReplies) (size : Nat) :
    (∃ fuel outcome, uploadParts (.ok file) replies size fuel = some outcome) ↔
      file.Brings size ∨ ∃ i error, replies.get i = .error error := by
  constructor
  · rintro ⟨fuel, outcome, hsome⟩
    by_contra hneither
    rw [not_or] at hneither
    have hserved : Served replies := by
      intro i
      cases hreply : replies.get i with
      | ok eTag => exact ⟨eTag, rfl⟩
      | error error => exact absurd ⟨i, error, hreply⟩ hneither.2
    rw [uploadParts_hangs hneither.1 hserved fuel] at hsome
    cases hsome
  · rintro (hbrings | ⟨i, error, hrefused⟩)
    · obtain ⟨fuel, outcome, hsome, -⟩ := uploadParts_ends hbrings replies
      exact ⟨fuel, outcome, hsome⟩
    · exact uploadParts_refused hrefused file size

/-- With all part uploads succeeding, the loop returns, and with parts only if it has
sent the whole size, exactly if finitely many reads bring the size or a read fails. -/
theorem uploadParts_returns_iff (file : FileReads) (eTags : Stream' (Option Str))
    (size : Nat) :
    (∃ fuel outcome,
      uploadParts (.ok file) (eTags.map Except.ok) size fuel = some outcome ∧
        ∀ parts, outcome.result = .ok parts → sentBytes outcome.sent = size) ↔
      file.Brings size := by
  have hserved : Served (eTags.map Except.ok) := fun i => ⟨eTags.get i, rfl⟩
  constructor
  · rintro ⟨fuel, outcome, hsome, -⟩
    by_contra hshort
    rw [uploadParts_hangs hshort hserved fuel] at hsome
    cases hsome
  · intro hbrings
    exact uploadParts_ends hbrings _

/-- A file of one byte, where the metadata read one byte more than the threshold. -/
theorem uploadParts_truncated_hangs :
    ¬ ∃ fuel outcome,
      uploadParts (.ok (Reads.ofChunks [[0]])) ((Stream'.const none).map Except.ok)
        (MULTIPART_THRESHOLD + 1) fuel = some outcome := by
  rintro ⟨fuel, outcome, hsome⟩
  have hshort : ¬ (Reads.ofChunks [[0]] : FileReads).Brings (MULTIPART_THRESHOLD + 1) := by
    rw [Reads.brings_ofChunks]
    decide
  have hserved : Served ((Stream'.const none).map Except.ok) := fun i => ⟨none, rfl⟩
  rw [uploadParts_hangs hshort hserved fuel] at hsome
  cases hsome

end AbixioUi.Multipart
