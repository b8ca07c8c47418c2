import AtomicCommit.Cluster.Journal
import AtomicCommit.Proofs.Log.Boundary
import AtomicCommit.Proofs.Log.Checksum

/-!
# Changed content of frames

The checksum of a frame covers its body. A change of four consecutive bytes of a body, or of the
checksum itself, is noticed at the offset of the frame, and a log that can not be read is not
opened: its file stays as it is.

## Main results

* `Frame.exists_parts`: the frame between two boundaries, and what stands before and after it.
* `Log.File.altered_content_is_noticed`: a changed body or checksum is noticed.
-/

namespace AtomicCommit.Frame

variable {bytes changed : List UInt8} {es : List Entry} {stop k n n' start : ℕ}

/-- The frame between two boundaries of bytes that can be read, with what stands before and after
it. -/
theorem exists_parts (read : decodeFrom 0 bytes = .ok (es, stop)) (starts : Boundary bytes k n)
    (ends : Boundary bytes (k + 1) n') :
    ∃ before length checksum body rest, bytes = before ++ (length ++ (checksum ++ (body ++ rest))) ∧
      WholeFrom 0 before (es.take k) ∧ before.length = n ∧ length.length = 4 ∧
      checksum.length = 4 ∧ body.length = number length ∧ n' = n + 8 + body.length ∧
      (Checksum.ofBytes body).toNat = number checksum := by
  obtain ⟨found, here, rfl⟩ := starts.find?_drop ends
  have first := starts.wholeFrom_take read
  have size : (bytes.take n).length = n := by
    rw [List.length_take, Nat.min_eq_left starts.le_length]
  obtain ⟨length, checksum, hl, hc, long, stated, split⟩ := find?_eq_some_iff.1 here
  refine ⟨bytes.take n, length, checksum, found.body, found.rest, ?_, first, size, hl, hc, long,
    rfl, ?_⟩
  · rw [← split, List.take_append_drop]
  · -- All of it has been read, this frame too.
    rw [← List.take_append_drop n bytes, decodeFrom_append first, size, Nat.zero_add] at read
    cases behind : decodeFrom n (bytes.drop n) with
    | error failure => simp [behind, Except.map] at read
    | ok r =>
      obtain ⟨missing, -⟩ | ⟨found', _, _, here', entry, -⟩ := decodeFrom_cases behind
      · rw [missing] at here
        cases here
      · rw [here, Option.some.injEq] at here'
        subst here'
        rw [checksum_of_entry entry, stated]

end AtomicCommit.Frame

namespace AtomicCommit.Log.File

open Frame

/-- **A change of the content of a frame is noticed.** Of bytes that can be read, some are changed:
within the checksum of a frame, or within four consecutive places at most of its body. Then they
can not be read, for the checksum at the offset of this frame; and a log in a file of them is not
opened, and leaves the file as it is. -/
theorem altered_content_is_noticed {bytes changed : List UInt8} {es : List Entry}
    {stop k n n' start last : ℕ} (read : decodeAll bytes = .ok (es, stop))
    (starts : Boundary bytes k n) (ends : Boundary bytes (k + 1) n')
    (altered : Altered bytes changed start last)
    (place : (n + 4 ≤ start ∧ last ≤ n + 8) ∨ (n + 8 ≤ start ∧ last ≤ n' ∧ last ≤ start + 4)) :
    decodeAll changed = .error (.corrupt (.checksum n)) ∧
      Cluster.Store.create (.file changed) =
        (.error (.corrupt (.checksum n)), .closed changed) := by
  suffices noticed : decodeAll changed = .error (.corrupt (.checksum n)) by
    refine ⟨noticed, ?_⟩
    simp [Cluster.Store.create, Cluster.Store.reopen, Cluster.Store.bytes, ofBytes, noticed, bind,
      Except.bind]
  obtain ⟨before, length, checksum, body, rest, rfl, first, rfl, hl, hc, size, rfl, checked⟩ :=
    exists_parts (decodeAll_eq_ok_iff.1 read) starts ends
  obtain ⟨_, rfl, frame⟩ := altered.append_left (by omega)
  obtain ⟨_, rfl, guarded⟩ := frame.append_left (by omega)
  rcases place with ⟨_, _⟩ | ⟨_, _, _⟩
  · -- The checksum is another number, and the body has the one that was stated.
    obtain ⟨checksum', rfl, field⟩ := guarded.append_right (by omega)
    have hc' : checksum'.length = 4 := by rw [field.length, hc]
    apply decodeAll_of_checksum_ne first hl hc' (by rw [List.length_append]; omega)
    rw [← size, List.take_left, checked]
    intro same
    exact field.differs (eq_of_number_eq (by omega) same.symm)
  · -- The body has another checksum than that stated.
    obtain ⟨_, rfl, content⟩ := guarded.append_left (by omega)
    obtain ⟨body', rfl, within⟩ := content.append_right (by omega)
    have size' : body'.length = number length := by rw [within.length, size]
    apply decodeAll_of_checksum_ne first hl hc (by rw [List.length_append]; omega)
    rw [← size', List.take_left, ← checked]
    intro same
    exact Checksum.ofBytes_ne_of_altered within (by omega) (by omega) (BitVec.eq_of_toNat_eq same)

section Damaged

/-- Where the second of two frames begins. -/
def second : ℕ := 8 + (bodyOf begun).length

theorem boundary_twoFrames : Boundary (twoFrames (bodyOf begun).length) 1 second ∧
    Boundary (twoFrames (bodyOf begun).length) 2 (second + (8 + (bodyOf balloted).length)) := by
  have small : (bodyOf begun).length < Nat.pow 2 32 ∧ (bodyOf balloted).length < Nat.pow 2 32 := by
    decide +kernel
  rw [twoFrames, contents, second]
  generalize bodyOf begun = a at small ⊢
  generalize bodyOf balloted = b at small ⊢
  have whole : Boundary (wrap b) 1 (8 + b.length + 0) :=
    .next (by rw [List.append_nil, wrap]) (length_word _) (length_word _) (number_word small.2).symm
      .start
  have first {k n : ℕ} : Boundary (wrap b) k n → Boundary _ (k + 1) (8 + a.length + n) :=
    .next rfl (length_word a.length) (length_word (Checksum.ofBytes a).toNat)
      (number_word small.1).symm
  exact ⟨first .start, first whole⟩

/-- Two bytes of the second body are changed. -/
def damaged : List UInt8 :=
  ((twoFrames (bodyOf begun).length).set (second + 9) 0).set (second + 10) 0

theorem altered_damaged :
    Altered (twoFrames (bodyOf begun).length) damaged (second + 9) (second + 11) where
  length := by rw [damaged, List.length_set, List.length_set]
  differs := by
    have quote : (twoFrames (bodyOf begun).length)[second + 9]? = some 34 := by decide +kernel
    intro same
    rw [← same, damaged, List.getElem?_set_ne (by omega), List.getElem?_set_self'] at quote
    simp at quote
  outside := by
    intro i away
    rw [damaged, List.getElem?_set_ne (by omega), List.getElem?_set_ne (by omega)]

theorem altered_content_is_noticed_damaged :
    decodeAll (twoFrames (bodyOf begun).length) =
      .ok ([begun, balloted], (twoFrames (bodyOf begun).length).length) ∧
    decodeAll damaged = .error (.corrupt (.checksum second)) ∧
    Cluster.Store.create (.file damaged) =
      (.error (.corrupt (.checksum second)), .closed damaged) := by
  have whole := wholeFrom_twoFrames
  have read := decodeAll_append_of_none whole find?_nil
  rw [List.append_nil] at read
  obtain ⟨starts, ends⟩ := boundary_twoFrames
  have long : 3 ≤ (bodyOf balloted).length := by decide +kernel
  have place : second + 8 ≤ second + 9 ∧
      second + 11 ≤ second + (8 + (bodyOf balloted).length) ∧ second + 11 ≤ second + 9 + 4 := by
    omega
  exact ⟨read, altered_content_is_noticed read starts ends altered_damaged (.inr place)⟩

end Damaged

end AtomicCommit.Log.File
