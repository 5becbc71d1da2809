import Mathlib.Algebra.Ring.Nat
import Mathlib.Data.Stream.Init

/-! # Reading from a stream of chunks

What a reader gives is a stream of chunks, read from the front. A read takes at most the
number of items it asks for, and leaves what it does not take for the next one. A read
of nothing says that there is nothing for now, and a read may fail.
-/

namespace AbixioUi.Foundation

universe u v

/-- The chunks that the reads to come will give. -/
abbrev Reads (ε : Type u) (α : Type v) := Stream' (Except ε (List α))

namespace Reads

variable {ε : Type u} {α : Type v} {reads next : Reads ε α} {chunk bytes content : List α}
  {k n size : Nat}

/-- Read at most `size` items. -/
def read (reads : Reads ε α) (size : Nat) : Except ε (List α × Reads ε α) :=
  match reads.head with
  | .error error => .error error
  | .ok chunk =>
      if chunk.length ≤ size then .ok (chunk, reads.tail)
      else .ok (chunk.take size, Stream'.cons (.ok (chunk.drop size)) reads.tail)

theorem read_error {error : ε} (h : reads.head = .error error) (size : Nat) :
    reads.read size = .error error := by
  simp only [read, h]

theorem read_whole (h : reads.head = .ok chunk) (hle : chunk.length ≤ size) :
    reads.read size = .ok (chunk, reads.tail) := by
  simp only [read, h, if_pos hle]

theorem read_part (h : reads.head = .ok chunk) (hlt : size < chunk.length) :
    reads.read size =
      .ok (chunk.take size, Stream'.cons (.ok (chunk.drop size)) reads.tail) := by
  simp only [read, h, if_neg (Nat.not_le_of_lt hlt)]

theorem length_read_le (h : reads.read size = .ok (bytes, next)) : bytes.length ≤ size := by
  cases hhead : reads.head with
  | error error =>
      rw [read_error hhead] at h
      cases h
  | ok chunk =>
      by_cases hle : chunk.length ≤ size
      · rw [read_whole hhead hle] at h
        cases h
        exact hle
      · rw [read_part hhead (Nat.lt_of_not_le hle)] at h
        cases h
        exact List.length_take_le size chunk

/-! ## Reading a fixed content -/

/-- The chunks, and nothing after them. -/
def ofChunks (chunks : List (List α)) : Reads ε α :=
  chunks.map Except.ok ++ₛ Stream'.const (.ok [])

/-- The content comes in non-empty chunks, and nothing after it. -/
def Delivers (reads : Reads ε α) (content : List α) : Prop :=
  ∃ chunks, (∀ chunk ∈ chunks, chunk ≠ []) ∧ chunks.flatten = content ∧
    reads = ofChunks chunks

theorem delivers_ofChunks {chunks : List (List α)} (h : ∀ chunk ∈ chunks, chunk ≠ []) :
    Delivers (ofChunks chunks : Reads ε α) chunks.flatten :=
  ⟨chunks, h, rfl, rfl⟩

/-- A read takes from the front, and takes something unless there is nothing left. -/
theorem Delivers.read (h : Delivers reads content) (hsize : 0 < size) :
    ∃ bytes rest next, reads.read size = .ok (bytes, next) ∧ content = bytes ++ rest ∧
      Delivers next rest ∧ (bytes = [] → content = []) := by
  obtain ⟨chunks, hchunks, rfl, rfl⟩ := h
  cases chunks with
  | nil =>
      refine ⟨[], [], _, read_whole rfl (Nat.zero_le size), rfl, ⟨[], hchunks, rfl, ?_⟩,
        fun _ => rfl⟩
      exact Stream'.tail_const _
  | cons chunk chunks =>
      obtain ⟨hchunk, hrest⟩ := List.forall_mem_cons.mp hchunks
      have hhead : (ofChunks (chunk :: chunks) : Reads ε α).head = .ok chunk := rfl
      by_cases hle : chunk.length ≤ size
      · exact ⟨chunk, chunks.flatten, _, read_whole hhead hle, rfl, delivers_ofChunks hrest,
          fun hnil => absurd hnil hchunk⟩
      · have hlt := Nat.lt_of_not_le hle
        refine ⟨chunk.take size, chunk.drop size ++ chunks.flatten, _, read_part hhead hlt,
          ?_, ⟨chunk.drop size :: chunks, ?_, rfl, rfl⟩, ?_⟩
        · rw [← List.append_assoc, List.take_append_drop]
          rfl
        · rw [List.forall_mem_cons]
          refine ⟨?_, hrest⟩
          rw [Ne, List.drop_eq_nil_iff]
          exact hle
        · intro hnil
          have hlength := congrArg List.length hnil
          rw [List.length_take, List.length_nil] at hlength
          omega

/-! ## Reads that bring enough -/

/-- The first `k` reads bring `n` items, or one of them fails. -/
def BringsWithin : Nat → Reads ε α → Nat → Prop
  | 0, _, n => n = 0
  | k + 1, reads, n =>
      n = 0 ∨
        match reads.head with
        | .error _ => True
        | .ok chunk => BringsWithin k reads.tail (n - chunk.length)

/-- The items in the first `k` reads. -/
def available (reads : Reads ε α) (k : Nat) : Nat :=
  ((reads.take k).map fun
    | .ok chunk => chunk.length
    | .error _ => 0).sum

/-- Finitely many reads bring `n` items, or a read fails. -/
def Brings (reads : Reads ε α) (n : Nat) : Prop :=
  ∃ k, n ≤ reads.available k ∨ ∃ error, reads.get k = .error error

theorem bringsWithin_ok (h : reads.head = .ok chunk) (k n : Nat) :
    BringsWithin (k + 1) reads n ↔ n = 0 ∨ BringsWithin k reads.tail (n - chunk.length) := by
  simp only [BringsWithin, h]

theorem bringsWithin_error {error : ε} (h : reads.head = .error error) (k n : Nat) :
    BringsWithin (k + 1) reads n := by
  simp only [BringsWithin, h, or_true]

theorem available_succ (h : reads.head = .ok chunk) (k : Nat) :
    reads.available (k + 1) = chunk.length + available reads.tail k := by
  simp only [available, Stream'.take_succ, List.map_cons, List.sum_cons, h]

/-- Bounds on the reads and the closed form of them agree. -/
theorem brings_iff (reads : Reads ε α) (n : Nat) :
    reads.Brings n ↔ ∃ k, BringsWithin k reads n := by
  constructor
  · rintro ⟨k, h⟩
    refine ⟨k + 1, ?_⟩
    induction k generalizing reads n with
    | zero =>
        rcases h with hle | ⟨error, herror⟩
        · exact .inl (Nat.le_zero.mp hle)
        · exact bringsWithin_error herror 0 n
    | succ k ih =>
        cases hhead : reads.head with
        | error error => exact bringsWithin_error hhead _ n
        | ok chunk =>
            refine (bringsWithin_ok hhead _ n).mpr (.inr (ih _ _ ?_))
            rcases h with hle | herror
            · rw [available_succ hhead] at hle
              exact .inl (by omega)
            · exact .inr herror
  · rintro ⟨k, h⟩
    induction k generalizing reads n with
    | zero => exact ⟨0, .inl (Nat.le_of_eq h)⟩
    | succ k ih =>
        cases hhead : reads.head with
        | error error => exact ⟨0, .inr ⟨error, hhead⟩⟩
        | ok chunk =>
            rcases (bringsWithin_ok hhead k n).mp h with hzero | htail
            · exact ⟨0, .inl (Nat.le_of_eq hzero)⟩
            · obtain ⟨k', hle | herror⟩ := ih _ _ htail
              · refine ⟨k' + 1, .inl ?_⟩
                rw [available_succ hhead]
                omega
              · exact ⟨k' + 1, .inr herror⟩

/-- A read gets closer to what is brought: by its items, or by itself if it is empty. -/
theorem BringsWithin.read (h : BringsWithin k reads n) (hn : 0 < n) (hsize : 0 < size)
    (hread : reads.read size = .ok (bytes, next)) :
    ∃ k', BringsWithin k' next (n - bytes.length) ∧ k' < k + bytes.length ∧ k' ≤ k := by
  cases k with
  | zero => exact absurd h (Nat.ne_of_gt hn)
  | succ k =>
      cases hhead : reads.head with
      | error error =>
          rw [read_error hhead] at hread
          cases hread
      | ok chunk =>
          have htail : BringsWithin k reads.tail (n - chunk.length) :=
            ((bringsWithin_ok hhead k n).mp h).resolve_left (Nat.ne_of_gt hn)
          by_cases hle : chunk.length ≤ size
          · rw [read_whole hhead hle] at hread
            cases hread
            exact ⟨k, htail, by omega, by omega⟩
          · have hlt := Nat.lt_of_not_le hle
            rw [read_part hhead hlt] at hread
            cases hread
            have hlength : (chunk.take size).length = size := by
              rw [List.length_take]
              omega
            refine ⟨k + 1, (bringsWithin_ok rfl k _).mpr (.inr ?_), by omega, Nat.le_refl _⟩
            rw [hlength, List.length_drop]
            have hsplit : n - size - (chunk.length - size) = n - chunk.length := by omega
            rw [hsplit]
            exact htail

/-- Where the reads never bring enough they do not fail, and no read changes that. -/
theorem read_of_not_brings (h : ¬ reads.Brings n) (size : Nat) :
    ∃ bytes next, reads.read size = .ok (bytes, next) ∧ ¬ next.Brings (n - bytes.length) := by
  simp only [brings_iff, not_exists] at h ⊢
  cases hhead : reads.head with
  | error error => exact absurd (bringsWithin_error hhead 0 n) (h 1)
  | ok chunk =>
      have htail : ∀ k, ¬ BringsWithin k reads.tail (n - chunk.length) :=
        fun k hk => h (k + 1) ((bringsWithin_ok hhead k n).mpr (.inr hk))
      by_cases hle : chunk.length ≤ size
      · exact ⟨chunk, reads.tail, read_whole hhead hle, htail⟩
      · have hlt := Nat.lt_of_not_le hle
        have hlength : (chunk.take size).length = size := by
          rw [List.length_take]
          omega
        have hmore : chunk.length < n := by
          by_contra hfew
          apply htail 0
          show n - chunk.length = 0
          omega
        refine ⟨chunk.take size, _, read_part hhead hlt, fun k hk => ?_⟩
        rw [hlength] at hk
        cases k with
        | zero =>
            have hzero : n - size = 0 := hk
            omega
        | succ k =>
            rcases (bringsWithin_ok rfl k _).mp hk with hzero | hrest
            · omega
            · apply htail k
              have hsplit : n - chunk.length = n - size - (chunk.drop size).length := by
                rw [List.length_drop]
                omega
              rw [hsplit]
              exact hrest

/-- A fixed content brings as much as it has. -/
theorem brings_ofChunks (chunks : List (List α)) (n : Nat) :
    (ofChunks chunks : Reads ε α).Brings n ↔ n ≤ chunks.flatten.length := by
  rw [brings_iff]
  constructor
  · rintro ⟨k, h⟩
    induction k generalizing chunks n with
    | zero =>
        have hzero : n = 0 := h
        omega
    | succ k ih =>
        cases chunks with
        | nil =>
            have htail : Stream'.tail (ofChunks [] : Reads ε α) = ofChunks [] :=
              Stream'.tail_const _
            have hhead : (ofChunks [] : Reads ε α).head = .ok [] := rfl
            rcases (bringsWithin_ok hhead k n).mp h with hzero | hrest
            · omega
            · rw [htail] at hrest
              simpa using ih [] _ hrest
        | cons chunk chunks =>
            rw [List.flatten_cons, List.length_append]
            have hhead : (ofChunks (chunk :: chunks) : Reads ε α).head = .ok chunk := rfl
            rcases (bringsWithin_ok hhead k n).mp h with hzero | hrest
            · omega
            · have hle := ih chunks _ hrest
              omega
  · intro hle
    induction chunks generalizing n with
    | nil => exact ⟨0, Nat.le_zero.mp hle⟩
    | cons chunk chunks ih =>
        rw [List.flatten_cons, List.length_append] at hle
        obtain ⟨k, hk⟩ := ih (n - chunk.length) (by omega)
        have hhead : (ofChunks (chunk :: chunks) : Reads ε α).head = .ok chunk := rfl
        exact ⟨k + 1, (bringsWithin_ok hhead k n).mpr (.inr hk)⟩

end Reads

end AbixioUi.Foundation
