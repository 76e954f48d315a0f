import MyLibevent.CodeQueue

/-!
# Calls on a queue of codes

`AppendOneCode` compares the length of a code with the free length with the wrong sign, so that no code is
ever appended. `PeekHeadCode` has the wrong sign in the same place.
-/

namespace MyLibevent.Proofs

open CodeQueue

section Empty

variable {q : CodeQueue} {code : Bytes}

structure EmptyQueue (q : CodeQueue) : Prop where
  size : 0 < q.size
  offset : 0 < q.codeBufOffSet
  indices : q.readIndex = q.writeIndex

lemma EmptyQueue.getCanWriteLen (hq : EmptyQueue q) : q.getCanWriteLen = q.size - queueReserveLength := by
  unfold CodeQueue.getCanWriteLen unused
  rw [if_pos hq.indices]

lemma appendOneCode_fails (q : CodeQueue) (code : Bytes) :
    (q.appendOneCode code).1 ≠ 0 ∧ (q.appendOneCode code).2 = q := by
  unfold appendOneCode
  dsimp only
  split_ifs with hempty hinit hfull hindex hlength
  · exact ⟨by simp, rfl⟩
  · exact ⟨by simp, rfl⟩
  · exact ⟨by simp, rfl⟩
  · exact ⟨by simp, rfl⟩
  · exact ⟨by simp, rfl⟩
  · -- the free length is positive, so no length is at most its negative
    exfalso
    have hroom : 0 < q.getCanWriteLen := by simpa [isQueueFull, CodeQueue.getCanWriteLen] using hfull
    omega

lemma EmptyQueue.getHeadCode (hq : EmptyQueue q) : q.getHeadCode = (-2, [], q) := by
  unfold CodeQueue.getHeadCode getCanReadLen
  have hinit : ¬(q.codeBufOffSet ≤ 0 ∨ q.size ≤ 0) := by
    have hsize := hq.size
    have hoffset := hq.offset
    omega
  rw [if_neg hinit, if_pos hq.indices]
  rfl

end Empty

section Indices

variable {q : CodeQueue}

lemma getHeadCode_writeIndex (q : CodeQueue) : q.getHeadCode.2.2.writeIndex = q.writeIndex := by
  unfold CodeQueue.getHeadCode
  dsimp only
  split_ifs <;> rfl

lemma peekHeadCode_queue (q : CodeQueue) : q.peekHeadCode.2.2 = q := by
  unfold peekHeadCode
  dsimp only
  split_ifs <;> rfl

lemma deleteHeadCode_writeIndex (q : CodeQueue) : q.deleteHeadCode.2.writeIndex =
    if 0 < q.codeBufOffSet ∧ 0 < q.size ∧ q.readIndex = q.writeIndex then 0 else q.writeIndex := by
  unfold deleteHeadCode isQueueEmpty
  dsimp only
  by_cases hinit : q.codeBufOffSet ≤ 0 ∨ q.size ≤ 0
  · rw [if_pos hinit, if_neg (by omega)]
  rw [if_neg hinit]
  by_cases hempty : q.readIndex = q.writeIndex
  · rw [if_pos (decide_eq_true hempty), if_pos (by omega)]
    rfl
  · have hcond : ¬(0 < q.codeBufOffSet ∧ 0 < q.size ∧ q.readIndex = q.writeIndex) := fun h => hempty h.2.2
    rw [if_neg (by simpa using hempty), if_neg hcond]
    split_ifs <;> rfl

/-- `DeleteHeadCode` clears both indices of a queue that it finds empty. -/
theorem ownIndices_iff (q : CodeQueue) : q.OwnIndices ↔
    ¬(0 < q.codeBufOffSet ∧ 0 < q.size ∧ q.readIndex = q.writeIndex ∧ q.writeIndex ≠ 0) := by
  have hdelete := deleteHeadCode_writeIndex q
  constructor
  · rintro h ⟨hoffset, hsize, hempty, hne⟩
    rw [h.delete, if_pos ⟨hoffset, hsize, hempty⟩] at hdelete
    exact hne hdelete
  · intro h
    refine ⟨fun code => ?_, getHeadCode_writeIndex q, by rw [peekHeadCode_queue], ?_⟩
    · rw [(appendOneCode_fails q code).2]
    · rw [hdelete]
      split_ifs with hempty
      · by_contra hne
        exact h ⟨hempty.1, hempty.2.1, hempty.2.2, Ne.symm hne⟩
      · rfl

theorem deleteHeadCode_clears : ¬(CodeQueue.mk 100 codeQueueSize 5 5 fun _ => 0).OwnIndices := by
  intro h
  exact absurd h.delete (by decide)

end Indices

section Peek

variable {q : CodeQueue} {codes : List Bytes}

lemma two_le_getCanReadLen (h : q.HoldsCodes codes) : 2 ≤ q.getCanReadLen := by
  obtain ⟨code, codes, rfl⟩ := List.exists_cons_of_ne_nil h.some
  have hcode := (h.length code List.mem_cons_self).1
  have hlength : q.getCanReadLen.toNat = (code :: codes).flatten.length := by
    rw [← h.readable]
    simp [CodeQueue.readable]
  rw [List.flatten_cons, List.length_append] at hlength
  omega

/-- `PeekHeadCode` refuses every code, so that it agrees with `GetHeadCode` on what that refuses too. -/
theorem peeksAndDeletes_iff (h : q.HoldsCodes codes) : q.PeeksAndDeletes ↔ q.getCanReadLen - 2 < q.headLength := by
  have hlen := two_le_getCanReadLen h
  have hoffset := h.offset
  have hread := h.read
  have hinit : ¬(q.codeBufOffSet ≤ 0 ∨ q.size ≤ 0) := by omega
  have hhead : 0 ≤ q.headLength ∧ q.headLength < 2 ^ 16 := by
    have h0 := (q.codeBuf 0).toNat_lt
    have h1 := (q.codeBuf 1).toNat_lt
    unfold headLength
    omega
  have hpeek : q.peekHeadCode = (-3, [], q) := by
    unfold peekHeadCode
    rw [if_neg hinit]
    dsimp only
    rw [if_neg (by omega), if_neg (by omega), if_pos (by omega)]
  unfold PeeksAndDeletes
  rw [hpeek]
  constructor
  · rintro ⟨heq, -⟩
    by_contra hle
    have hget : q.getHeadCode.1 = 0 := by
      unfold CodeQueue.getHeadCode
      rw [if_neg hinit]
      dsimp only
      rw [if_neg (by omega), if_neg (by omega), if_neg (by omega)]
    rw [← heq] at hget
    cases hget
  · intro hlt
    have hempty : ¬q.isQueueEmpty := by
      unfold isQueueEmpty
      rw [decide_eq_true_iff]
      intro heq
      rw [getCanReadLen, if_pos heq] at hlen
      omega
    have hshort : q.headLength.bmod (2 ^ 16) > q.getCanReadLen - 2 ∨ q.headLength.bmod (2 ^ 16) < 0 := by
      rw [Int.bmod_def]
      split <;> omega
    have hdelete : q.deleteHeadCode = (-3, q.setCriticalData q.writeIndex (-1)) := by
      rw [deleteHeadCode, if_neg hinit, if_neg hempty]
      dsimp only
      rw [if_neg (by omega), if_pos hshort]
    have hget : q.getHeadCode = (-3, [], q.setCriticalData q.writeIndex (-1)) := by
      rw [CodeQueue.getHeadCode, if_neg hinit]
      dsimp only
      rw [if_neg (by omega), if_neg (by omega), if_pos hlt]
    rw [hget]
    dsimp only
    rw [hdelete]
    exact ⟨rfl, rfl⟩

end Peek

section Codes

/-- A ring of 16 bytes in which two codes begin at the start. -/
def twoCodes (writeIndex : Int) : CodeQueue :=
  ⟨16, codeQueueSize, 0, writeIndex, fun i => [0, 3, 1, 0, 4, 2, 3].getD i 0⟩

/-- A code that is alone is refused by all three. -/
theorem peeksAndDeletes_iff_alone : (twoCodes 3).HoldsCodes [[0, 3, 1]] ∧ (twoCodes 3).PeeksAndDeletes := by
  have h : (twoCodes 3).HoldsCodes [[0, 3, 1]] := by
    refine ⟨by decide, by decide, by decide, by decide, by decide, rfl⟩
  exact ⟨h, (peeksAndDeletes_iff h).mpr (by decide)⟩

theorem peekHeadCode_refuses : (twoCodes 7).HoldsCodes [[0, 3, 1], [0, 4, 2, 3]] ∧
    (twoCodes 7).peekHeadCode.1 = -3 ∧ (twoCodes 7).getHeadCode.1 = 0 ∧ ¬(twoCodes 7).PeeksAndDeletes := by
  refine ⟨⟨by decide, by decide, by decide, by decide, by decide, rfl⟩, by decide, by decide, ?_⟩
  rintro ⟨h, -⟩
  exact absurd (congrArg Prod.fst h) (by decide)

end Codes

/-- The calls behave like a queue only if every append is of a code that has to be refused. -/
theorem codeQueue_fifo_iff {size : Int} {memory : Nat → UInt8} {q : CodeQueue}
    (hinit : initializeQueue size memory = some q) (ops : List CodeQueue.Op) :
    q.Fifo [] ops ↔ ∀ code, CodeQueue.Op.append code ∈ ops →
      ¬(0 < code.length ∧ code.length ≤ size - queueReserveLength ∧ code.length ≤ 0xFFFF) := by
  have hq : EmptyQueue q ∧ q.size = size := by
    unfold initializeQueue at hinit
    split at hinit
    · cases hinit
    · cases hinit
      exact ⟨⟨by dsimp only; omega, by simp [codeQueueSize], rfl⟩, rfl⟩
  obtain ⟨hq, rfl⟩ := hq
  induction ops with
  | nil => simp [Fifo]
  | cons op ops ih =>
    cases op with
    | append code =>
      obtain ⟨hfails, hsame⟩ := appendOneCode_fails q code
      simp only [Fifo, hsame, hfails, false_iff, if_false, ih, hq.getCanWriteLen, List.mem_cons,
        CodeQueue.Op.append.injEq, forall_eq_or_imp]
    | get =>
      simp [Fifo, hq.getHeadCode, ih]

/-- Calls on a queue of 16 bytes: a code that is too long, a get and an empty code. -/
theorem codeQueue_fifo_iff_refused : ∃ q, initializeQueue 16 (fun _ => 0) = some q ∧
    q.Fifo [] [.append [0, 9, 1, 2, 3, 4, 5, 6, 7], .get, .append []] := by
  have hinit : initializeQueue 16 (fun _ => 0) = some ⟨16, codeQueueSize, 0, 0, fun _ => 0⟩ := rfl
  refine ⟨_, hinit, (codeQueue_fifo_iff hinit _).mpr ?_⟩
  intro code hcode
  simp only [List.mem_cons, CodeQueue.Op.append.injEq, reduceCtorEq, List.not_mem_nil, or_false, false_or] at hcode
  obtain rfl | rfl := hcode
  · decide
  · decide

/-- A code of three bytes is refused by an empty queue of 100 bytes. -/
theorem codeQueue_refuses : ∃ q, initializeQueue 100 (fun _ => 0) = some q ∧ q.getCanWriteLen = 92 ∧
    (q.appendOneCode [0, 3, 7]).1 = -2 := by
  exact ⟨_, rfl, rfl, rfl⟩

end MyLibevent.Proofs
