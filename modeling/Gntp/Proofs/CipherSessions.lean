import Gntp.Action
import Gntp.Cipher.Session
import Gntp.Proofs.Aes
import Gntp.Proofs.CipherContexts
import Gntp.Proofs.Des

/-!
# What one text leaves to the next

A session works on a text as on one piece, however much is read at a time (`runText_encrypt`,
`runText_decrypt`), and nothing that it worked on before makes a difference (`run_congr`). Once it
has been initialized it restores what it has encrypted, and behaves like one that is new
(`serves_of_initialize?`).
-/

namespace Gntp

namespace Drain

variable {drain : Drain} {out more : Bytes}

/-- There is room for what is to be written. -/
def Takes (drain : Drain) (out : Bytes) : Prop :=
  ∀ room, drain.room = some room → out.length ≤ room

/-- The drain after it has taken what is written. -/
def filled (drain : Drain) (out : Bytes) : Drain := { drain with
  room := drain.room.map (· - out.length)
  held := drain.held ++ out }

theorem takes_of_unlimited (h : drain.room = none) (out : Bytes) : drain.Takes out :=
  fun _ hroom => nomatch h.symm.trans hroom

theorem takes_nil (drain : Drain) : drain.Takes [] := fun room _ => Nat.zero_le room

@[simp] theorem filled_nil (drain : Drain) : drain.filled [] = drain := by
  obtain ⟨failed, room, outlet, written, held⟩ := drain
  cases room <;> simp [filled]

theorem filled_append (drain : Drain) (out more : Bytes) :
    drain.filled (out ++ more) = (drain.filled out).filled more := by
  obtain ⟨failed, room, outlet, written, held⟩ := drain
  cases room <;> simp [filled, Nat.sub_sub]

@[simp] theorem taken_filled (drain : Drain) (out : Bytes) :
    (drain.filled out).taken = drain.taken ++ out := by
  simp [taken, filled]

/-- A drain that is flushed has no more and no less than before, in one place or the other. -/
@[simp] theorem taken_flush (drain : Drain) : drain.flush.taken = drain.taken := by
  unfold flush taken
  split
  · rw [List.append_nil]
  · rw [List.append_assoc, List.take_append_drop]

/-- What comes in two parts is taken like what comes at once. -/
theorem takes_append : drain.Takes (out ++ more) ↔
    drain.Takes out ∧ (drain.filled out).Takes more := by
  obtain ⟨failed, room, outlet, written, held⟩ := drain
  cases room with
  | none => simp [Takes, filled]
  | some room => simp [Takes, filled]; omega

end Drain

namespace InContext

open Gntp.Action

variable {suite : Suite} {sealing : Sealing} {direction : Direction} {source : Source}
  {drain : Drain} {block : BlockCipher} {context? : Option CipherContext} {text out : Bytes}

/-! ## Writing -/

theorem write_of_takes (h : drain.Takes out) : write drain out = pure (drain.filled out) := by
  obtain ⟨failed, room, outlet, written, held⟩ := drain
  cases room with
  | none => rfl
  | some room => exact if_pos (h room rfl)

theorem write_of_not_takes (h : ¬ drain.Takes out) : write drain out = throw .unwritable := by
  obtain ⟨failed, room, outlet, written, held⟩ := drain
  cases room with
  | none => exact absurd (Drain.takes_of_unlimited rfl out) h
  | some room =>
    have hfull : ¬ out.length ≤ room := fun hle => h fun _ hroom => Option.some.inj hroom ▸ hle
    exact if_neg hfull

/-- It makes no difference whether something is written in one part or in two. -/
theorem write_append (drain : Drain) (out more : Bytes) :
    write drain (out ++ more) = write drain out >>= fun drain => write drain more := by
  by_cases hout : drain.Takes out
  · rw [write_of_takes hout, pure_bind]
    by_cases hmore : (drain.filled out).Takes more
    · rw [write_of_takes (Drain.takes_append.2 ⟨hout, hmore⟩), write_of_takes hmore,
        Drain.filled_append]
    · rw [write_of_not_takes fun h => hmore (Drain.takes_append.1 h).2, write_of_not_takes hmore]
  · rw [write_of_not_takes fun h => hout (Drain.takes_append.1 h).1, write_of_not_takes hout]
    rfl

theorem pump_nil (work : Bytes → InContext Bytes) (drain : Drain) :
    pump work drain [] = pure drain := rfl

theorem pump_cons (work : Bytes → InContext Bytes) (drain : Drain) (piece : Bytes)
    (pieces : List Bytes) : pump work drain (piece :: pieces) =
      work piece >>= fun out => write drain out >>= fun drain => pump work drain pieces := by
  rw [pump, List.foldlM_cons, bind_assoc]
  rfl

/-- What is copied piece by piece is written. -/
theorem pump_pure (drain : Drain) (pieces : List Bytes) :
    pump pure drain pieces = write drain pieces.flatten := by
  induction pieces generalizing drain with
  | nil => rw [pump_nil, List.flatten_nil, write_of_takes drain.takes_nil, Drain.filled_nil]
  | cons piece pieces ih =>
    rw [pump_cons, pure_bind, List.flatten_cons, write_append]
    exact congrArg _ (funext ih)

/-- What is written for the pieces is what comes out for all of them together. -/
theorem pump_update {pieces : List Bytes} {context : CipherContext}
    (h : drain.Takes (context.update pieces.flatten).1) :
    pump (update direction) drain pieces (some context) =
      .ok (drain.filled (context.update pieces.flatten).1)
        (some (context.update pieces.flatten).2) := by
  induction pieces generalizing drain context with
  | nil => rw [pump_nil, List.flatten_nil, CipherContext.update_nil, Drain.filled_nil]; rfl
  | cons piece pieces ih =>
    have hupdate : update direction piece (some context) =
        .ok (context.update piece).1 (some (context.update piece).2) := rfl
    rw [List.flatten_cons, CipherContext.update_append] at h ⊢
    obtain ⟨hpiece, hrest⟩ := Drain.takes_append.1 h
    rw [pump_cons, bind_of_ok hupdate, write_of_takes hpiece, pure_bind, ih hrest,
      Drain.filled_append]

/-- Pieces that more comes out for than there is room for. -/
theorem pump_update_of_not_takes {pieces : List Bytes} {context : CipherContext}
    (h : ¬ drain.Takes (context.update pieces.flatten).1) :
    ∃ context₁?, pump (update direction) drain pieces (some context) =
      .error .unwritable context₁? := by
  induction pieces generalizing drain context with
  | nil => exact absurd drain.takes_nil h
  | cons piece pieces ih =>
    have hupdate : update direction piece (some context) =
        .ok (context.update piece).1 (some (context.update piece).2) := rfl
    rw [List.flatten_cons, CipherContext.update_append] at h
    rw [pump_cons, bind_of_ok hupdate]
    by_cases hpiece : drain.Takes (context.update piece).1
    · rw [write_of_takes hpiece, pure_bind]
      exact ih fun hrest => h (Drain.takes_append.2 ⟨hpiece, hrest⟩)
    · rw [write_of_not_takes hpiece]
      exact ⟨_, rfl⟩

/-! ## Working on a text -/

/-- How a text is begun. -/
def initial (sealing : Sealing) (direction : Direction) (block : BlockCipher) : CipherContext where
  direction
  block
  size := sealing.cipher.blockSize
  mask := sealing.iv

theorem setUp_of_keyed (he : sealing.enabled = true) (hk : sealing.keyed? suite = some block) :
    setUp suite sealing direction context? = .ok () (some (initial sealing direction block)) := by
  unfold setUp
  rw [he, hk]
  rfl

/-- The context is cleared before anything else. -/
theorem process_congr (context? context₁? : Option CipherContext) :
    process suite sealing direction source drain context? =
      process suite sealing direction source drain context₁? := rfl

theorem setUp_of_unavailable (he : sealing.enabled = true) (hk : sealing.keyed? suite = none) :
    setUp suite sealing direction context? = .error direction.unavailable none := by
  unfold setUp
  rw [he, hk]
  rfl

theorem finish_eq (direction : Direction) (context : CipherContext) :
    finish direction (some context) = (match context.finish? with
      | some tail => pure tail
      | none => throw direction.unfinished : InContext Bytes) (some context) := rfl

theorem process_ready (suite : Suite) (sealing : Sealing) (direction : Direction) (text : Bytes)
    (drain : Drain) : process suite sealing direction (.ready text) drain =
      setUp suite sealing direction >>= fun _ =>
        pump (update direction) drain (Bytes.chunks Source.bufferSize text) >>= fun drain =>
          finish direction >>= fun tail => write drain tail := rfl

theorem outcome_bind_of_ok {α β : Type} {x : InContext α} {f : α → InContext β} {a : α}
    {context₁? : Option CipherContext} (h : x context? = .ok a context₁?) :
    (x >>= f).outcome context? = (f a).outcome context₁? := by
  rw [outcome, bind_of_ok h, outcome]

theorem outcome_bind_of_error {α β : Type} {x : InContext α} {f : α → InContext β}
    {fault : CipherFault} {context₁? : Option CipherContext}
    (h : x context? = .error fault context₁?) : (x >>= f).outcome context? = .error fault := by
  rw [outcome, bind_of_error h]

theorem outcome_map {α β : Type} (f : α → β) (x : InContext α) (context? : Option CipherContext) :
    (f <$> x).outcome context? = (x.outcome context?).map f := by
  rw [outcome, outcome]
  simp only [Functor.map, EStateM.map]
  cases x context? <;> rfl

theorem outcome_write_of_takes (h : drain.Takes out) :
    (write drain out).outcome context? = .ok (drain.filled out) := by
  rw [write_of_takes h]
  rfl

theorem outcome_write_of_not_takes (h : ¬ drain.Takes out) :
    (write drain out).outcome context? = .error .unwritable := by
  rw [write_of_not_takes h]
  rfl

/-- There is no room for what comes out before the last block. -/
theorem outcome_process_of_not_takes (he : sealing.enabled = true)
    (hk : sealing.keyed? suite = some block)
    (h : ¬ drain.Takes ((initial sealing direction block).update text).1) :
    (process suite sealing direction (.ready text) drain).outcome context? =
      .error .unwritable := by
  rw [← Bytes.flatten_chunks Source.bufferSize text] at h
  obtain ⟨_, hpump⟩ := pump_update_of_not_takes h
  rw [process_ready, outcome_bind_of_ok (setUp_of_keyed he hk), outcome_bind_of_error hpump]

theorem outcome_process_of_takes (he : sealing.enabled = true)
    (hk : sealing.keyed? suite = some block)
    (h : drain.Takes ((initial sealing direction block).update text).1) :
    (process suite sealing direction (.ready text) drain).outcome context? =
      match ((initial sealing direction block).update text).2.finish? with
      | some tail => (write (drain.filled ((initial sealing direction block).update text).1)
          tail).outcome (some ((initial sealing direction block).update text).2)
      | none => .error direction.unfinished := by
  rw [← Bytes.flatten_chunks Source.bufferSize text] at h
  rw [process_ready, outcome_bind_of_ok (setUp_of_keyed he hk),
    outcome_bind_of_ok (pump_update h), Bytes.flatten_chunks]
  cases hend : ((initial sealing direction block).update text).2.finish? with
  | some tail =>
    have hfinish : finish direction (some ((initial sealing direction block).update text).2) =
        .ok tail (some ((initial sealing direction block).update text).2) := by
      rw [finish_eq, hend]
      rfl
    rw [outcome_bind_of_ok hfinish]
  | none =>
    have hfinish : finish direction (some ((initial sealing direction block).update text).2) =
        .error direction.unfinished (some ((initial sealing direction block).update text).2) := by
      rw [finish_eq, hend]
      rfl
    rw [outcome_bind_of_error hfinish]

/-- A text is written as what it is worked into as a whole. -/
theorem outcome_process (he : sealing.enabled = true) (hk : sealing.keyed? suite = some block)
    (hworked : (initial sealing direction block).worked text = some out) :
    (process suite sealing direction (.ready text) drain).outcome context? =
      (write drain out).outcome context? := by
  obtain ⟨tail, htail, rfl⟩ := Option.map_eq_some_iff.1 hworked
  by_cases hbody : drain.Takes ((initial sealing direction block).update text).1
  · rw [outcome_process_of_takes he hk hbody, htail]
    dsimp only
    by_cases hend : (drain.filled ((initial sealing direction block).update text).1).Takes tail
    · rw [outcome_write_of_takes hend,
        outcome_write_of_takes (Drain.takes_append.2 ⟨hbody, hend⟩), Drain.filled_append]
    · rw [outcome_write_of_not_takes hend,
        outcome_write_of_not_takes fun h => hend (Drain.takes_append.1 h).2]
  · rw [outcome_process_of_not_takes he hk hbody,
      outcome_write_of_not_takes fun h => hbody (Drain.takes_append.1 h).1]

/-- A text that does not come to an end is not written, however much room there is. -/
theorem outcome_process_of_unfinished (he : sealing.enabled = true)
    (hk : sealing.keyed? suite = some block)
    (hworked : (initial sealing direction block).worked text = none) :
    (process suite sealing direction (.ready text) drain).outcome context? =
        .error direction.unfinished ∨
      drain.room ≠ none ∧ (process suite sealing direction (.ready text) drain).outcome context? =
        .error .unwritable := by
  have htail := Option.map_eq_none_iff.1 hworked
  by_cases hbody : drain.Takes ((initial sealing direction block).update text).1
  · rw [outcome_process_of_takes he hk hbody, htail]
    exact .inl rfl
  · exact .inr ⟨fun hroom => hbody (Drain.takes_of_unlimited hroom _),
      outcome_process_of_not_takes he hk hbody⟩

end InContext

/-- Every cipher at hand can be inverted, under every key. -/
theorem Suite.full_inverts {cipher : Cipher} (h : cipher ≠ .none) (key : Bytes) :
    ∃ keyed, Suite.full.cipher cipher = some keyed ∧ (keyed key).Inverts cipher.blockSize := by
  refine ⟨cipher.keyed, if_neg h, ?_⟩
  cases cipher with
  | none => exact absurd rfl h
  | aes => exact Cipher.inverts_aes key
  | des => exact Cipher.inverts_des key
  | tripleDes => exact Cipher.inverts_tripleDes key

namespace Sealing

variable {suite : Suite} {sealing : Sealing} {cipher : Cipher} {key iv text : Bytes}

theorem blockSize_pos (he : sealing.enabled = true) : 0 < sealing.cipher.blockSize := by
  rw [enabled, decide_eq_true_iff] at he
  cases h : sealing.cipher with
  | none => exact absurd h he
  | aes | des | tripleDes => exact Nat.succ_pos _

/-- A byte is enough to say how long the padding is. -/
theorem blockSize_lt (sealing : Sealing) : sealing.cipher.blockSize < 256 := by
  cases sealing.cipher <;> decide

theorem encrypt_of_keyed {block : BlockCipher} (he : sealing.enabled = true)
    (hk : sealing.keyed? suite = some block) : sealing.encrypt suite text =
      .ok ((block.encipher sealing.cipher.blockSize sealing.iv text).1 ++
        (block.encipher sealing.cipher.blockSize sealing.iv text).2) := by
  rw [encrypt, he, sealParts, hk]
  rfl

theorem decrypt_of_keyed {block : BlockCipher} (he : sealing.enabled = true)
    (hk : sealing.keyed? suite = some block) : sealing.decrypt suite text =
      match (block.decipher sealing.cipher.blockSize sealing.iv text).2.map
        ((block.decipher sealing.cipher.blockSize sealing.iv text).1 ++ ·) with
      | some out => .ok out
      | none => .error .badPadding := by
  rw [decrypt, he, unsealParts, hk]
  dsimp only
  rcases block.decipher sealing.cipher.blockSize sealing.iv text with ⟨body, _ | tail⟩ <;> rfl

/-- A text opens if its last block has a padding. -/
theorem exists_decrypt_eq_ok {block : BlockCipher} (he : sealing.enabled = true)
    (hk : sealing.keyed? suite = some block) : (∃ out, sealing.decrypt suite text = .ok out) ↔
      (block.decipher sealing.cipher.blockSize sealing.iv text).2.isSome = true := by
  rw [decrypt_of_keyed he hk]
  cases (block.decipher sealing.cipher.blockSize sealing.iv text).2 with
  | some tail => exact ⟨fun _ => rfl, fun _ => ⟨_, rfl⟩⟩
  | none => simp

/-- A sealing whose block cipher can be inverted restores what it has encrypted. -/
theorem restores {block : BlockCipher} (he : sealing.enabled = true)
    (hk : sealing.keyed? suite = some block) (H : block.Inverts sealing.cipher.blockSize)
    (text : Bytes) :
    ∃ ciphertext, sealing.encrypt suite text = .ok ciphertext ∧
      sealing.decrypt suite ciphertext = .ok text ∧
      IsLeast {n | sealing.cipher.blockSize ∣ n ∧ text.length < n} ciphertext.length := by
  have hpos := blockSize_pos he
  obtain ⟨body, tail, hdecipher, rfl⟩ :=
    H.decipher_encipher hpos sealing.blockSize_lt sealing.iv_length text
  refine ⟨_, encrypt_of_keyed he hk, ?_, H.isLeast_length hpos sealing.iv_length _⟩
  rw [decrypt_of_keyed he hk, hdecipher, Option.map_some]

/-- Of the key only so much counts as the cipher needs. -/
theorem make_eq_ok (h : make cipher key iv = .ok sealing) : sealing.cipher = cipher ∧
    sealing.key = key.take cipher.keySize ∧
      make cipher (key.take cipher.keySize) iv = .ok sealing := by
  unfold make at h ⊢
  by_cases hnone : cipher = .none
  · rw [if_pos hnone] at h ⊢
    cases h
    exact ⟨hnone.symm, by rw [hnone]; rfl, rfl⟩
  · rw [if_neg hnone] at h ⊢
    by_cases hshort : key.length < cipher.keySize
    · rw [dif_pos hshort] at h
      cases h
    · rw [dif_neg hshort] at h
      have hlength : (key.take cipher.keySize).length = cipher.keySize :=
        List.length_take_of_le (Nat.le_of_not_lt hshort)
      rw [dif_neg (Nat.not_lt_of_le (Nat.le_of_eq hlength.symm))]
      by_cases hiv : iv.length = cipher.ivSize
      · rw [dif_pos hiv] at h ⊢
        cases h
        simp only [List.take_take, Nat.min_self, and_self]
      · rw [dif_neg hiv] at h
        cases h

end Sealing

namespace CipherSession

variable {suite : Suite} {s s' t : CipherSession} {sealing : Sealing} {direction : Direction}
  {source : Source} {drain : Drain} {text key iv : Bytes} {cipher : Cipher}

/-! ## Texts as a whole -/

theorem work_ready (hs : s.sealing = some sealing) :
    s.work suite direction (.ready text) .ready =
      if sealing.enabled then
        Drain.flush <$> InContext.process suite sealing direction (.ready text) .ready
      else InContext.pump pure .ready (Bytes.chunks Source.bufferSize text) := by
  have hgood : ¬ (Source.ready text = .spent ∨ Drain.ready.failed) := by
    rintro (h | h) <;> cases h
  rw [work, hs]
  dsimp only
  rw [if_neg hgood]
  rfl

/-- Without a cipher a text stays as it is. -/
theorem runText_of_clear (hs : s.sealing = some sealing) (he : sealing.enabled = false) :
    s.runText suite direction text = .ok text := by
  rw [runText, run, drained, work_ready hs, he, if_neg Bool.false_ne_true, InContext.pump_pure,
    Bytes.flatten_chunks, InContext.outcome_write_of_takes (Drain.takes_of_unlimited rfl text)]
  rfl

/-- With a cipher, what was written is what comes of the text. -/
theorem runText_of_enabled (hs : s.sealing = some sealing) (he : sealing.enabled = true) :
    s.runText suite direction text =
      ((InContext.process suite sealing direction (.ready text) .ready).outcome
        s.context?).map Drain.taken := by
  rw [runText, run, drained, work_ready hs, if_pos he, InContext.outcome_map]
  cases (InContext.process suite sealing direction (.ready text) .ready).outcome s.context? with
  | ok drain => exact congrArg Except.ok drain.taken_flush
  | error fault => rfl

theorem runText_of_unavailable (hs : s.sealing = some sealing) (he : sealing.enabled = true)
    (hk : sealing.keyed? suite = none) :
    s.runText suite direction text = .error direction.unavailable := by
  rw [runText_of_enabled hs he, InContext.process_ready,
    InContext.outcome_bind_of_error (InContext.setUp_of_unavailable he hk)]
  rfl

theorem runText_of_keyed (hs : s.sealing = some sealing) (he : sealing.enabled = true)
    {block : BlockCipher} (hk : sealing.keyed? suite = some block) :
    s.runText suite direction text =
      match (InContext.initial sealing direction block).worked text with
      | some out => .ok out
      | none => .error direction.unfinished := by
  rw [runText_of_enabled hs he]
  cases hworked : (InContext.initial sealing direction block).worked text with
  | some out =>
    rw [InContext.outcome_process he hk hworked,
      InContext.outcome_write_of_takes (Drain.takes_of_unlimited rfl out)]
    rfl
  | none =>
    rcases InContext.outcome_process_of_unfinished he hk hworked with h | ⟨hroom, _⟩
    · rw [h]
      rfl
    · exact absurd rfl hroom

theorem runText_encrypt (hs : s.sealing = some sealing) :
    s.runText suite .encrypt text = sealing.encrypt suite text := by
  cases he : sealing.enabled with
  | false =>
    rw [runText_of_clear hs he, Sealing.encrypt, he, if_neg Bool.false_ne_true]
  | true =>
    cases hk : sealing.keyed? suite with
    | none =>
      rw [runText_of_unavailable hs he hk, Sealing.encrypt, he, Sealing.sealParts, hk]
      rfl
    | some block =>
      rw [runText_of_keyed hs he hk, Sealing.encrypt_of_keyed he hk,
        CipherContext.worked_encrypt rfl rfl (Sealing.blockSize_pos he)]
      rfl

theorem runText_decrypt (hs : s.sealing = some sealing) :
    s.runText suite .decrypt text = sealing.decrypt suite text := by
  cases he : sealing.enabled with
  | false =>
    rw [runText_of_clear hs he, Sealing.decrypt, he, if_neg Bool.false_ne_true]
  | true =>
    cases hk : sealing.keyed? suite with
    | none =>
      rw [runText_of_unavailable hs he hk, Sealing.decrypt, he, Sealing.unsealParts, hk]
      rfl
    | some block =>
      rw [runText_of_keyed hs he hk, Sealing.decrypt_of_keyed he hk,
        CipherContext.worked_decrypt rfl rfl (Sealing.blockSize_pos he)]
      rfl

/-! ## One text after the other -/

theorem outcome_work (s : CipherSession) (context? context₁? : Option CipherContext) :
    (s.work suite direction source drain).outcome context? =
      (s.work suite direction source drain).outcome context₁? := by
  unfold work
  split
  · rfl
  · split
    · rfl
    · split
      · rw [InContext.outcome_map, InContext.outcome_map, InContext.outcome,
          InContext.process_congr context? context₁?, InContext.outcome]
      · rw [InContext.pump_pure]
        by_cases h : drain.Takes source.pieces.flatten
        · rw [InContext.outcome_write_of_takes h, InContext.outcome_write_of_takes h]
        · rw [InContext.outcome_write_of_not_takes h, InContext.outcome_write_of_not_takes h]

/-- What a session returns depends on its parameters, and on nothing that is left of the texts that
it worked on. -/
theorem run_congr (h : s.sealing = t.sealing) :
    s.run suite direction source drain = t.run suite direction source drain := by
  have hwork : s.work suite direction source drain = t.work suite direction source drain := by
    rw [work, h, work]
  rw [run, run, drained, drained, hwork, t.outcome_work s.context? t.context?]

/-- The sessions that calls lead to as long as none of them sets the parameters. -/
inductive Further (suite : Suite) (s : CipherSession) : CipherSession → Prop
  | here : Further suite s s
  | work {t : CipherSession} (direction : Direction) (source : Source) (drain : Drain) :
    Further suite s t → Further suite s (t.after suite direction source drain)
  | refused {t : CipherSession} {cipher : Cipher} {key iv : Bytes} {fault : ParameterFault} :
    Further suite s t → t.initialize? cipher key iv = .error fault → Further suite s t

theorem Further.sealing_eq (h : Further suite s t) : t.sealing = s.sealing := by
  induction h with
  | here => rfl
  | work _ _ _ _ ih => exact ih
  | refused _ _ ih => exact ih

/-- A session does for every text what one that is new does, and restores what it encrypts. -/
structure Serves (suite : Suite) (cipher : Cipher) (fresh s : CipherSession) : Prop where
  restores : ∀ text, ∃ ciphertext, s.runText suite .encrypt text = .ok ciphertext ∧
    (s.after suite .encrypt (.ready text) .ready).runText suite .decrypt ciphertext = .ok text ∧
    (cipher ≠ .none → IsLeast {n | cipher.blockSize ∣ n ∧ text.length < n} ciphertext.length)
  clear : cipher = .none → ∀ direction text, s.runText suite direction text = .ok text
  fresh : ∀ direction source drain,
    s.run suite direction source drain = fresh.run suite direction source drain

theorem initialize?_eq_ok : s.initialize? cipher key iv = .ok s' ↔
    ∃ sealing, Sealing.make cipher key iv = .ok sealing ∧
      s' = { s with sealing := some sealing } := by
  unfold initialize?
  cases Sealing.make cipher key iv with
  | error fault => exact ⟨nofun, fun ⟨_, h, _⟩ => nomatch h⟩
  | ok sealing =>
    constructor
    · intro h
      cases h
      exact ⟨sealing, rfl, rfl⟩
    · rintro ⟨_, h, rfl⟩
      cases h
      rfl

/-- Whatever a session went through before it was initialized, and whatever it has worked on since,
be it in vain: it is as good as one that is new and gets as much of the key as its cipher needs. -/
theorem serves_of_initialize? (hinit : s.initialize? cipher key iv = .ok s')
    (hfurther : Further suite s' t)
    (hcipher : cipher ≠ .none → ∃ keyed, suite.cipher cipher = some keyed ∧
      (keyed (key.take cipher.keySize)).Inverts cipher.blockSize) :
    ∃ fresh, initialize? cipher (key.take cipher.keySize) iv {} = .ok fresh ∧
      Serves suite cipher fresh t := by
  obtain ⟨sealing, hmake, rfl⟩ := initialize?_eq_ok.1 hinit
  obtain ⟨rfl, hkey, htaken⟩ := Sealing.make_eq_ok hmake
  have ht : t.sealing = some sealing := hfurther.sealing_eq
  have hclear : sealing.cipher = .none → ∀ {u : CipherSession}, u.sealing = some sealing →
      ∀ direction text, u.runText suite direction text = .ok text :=
    fun hnone _ hu _ _ => runText_of_clear hu (decide_eq_false (not_not_intro hnone))
  refine ⟨_, initialize?_eq_ok.2 ⟨sealing, htaken, rfl⟩, fun text => ?_,
    fun hnone => hclear hnone ht, fun _ _ _ => run_congr ht⟩
  have hafter : (t.after suite .encrypt (.ready text) .ready).sealing = some sealing := ht
  by_cases hnone : sealing.cipher = .none
  · exact ⟨text, hclear hnone ht .encrypt text, hclear hnone hafter .decrypt text, absurd hnone⟩
  · obtain ⟨keyed, hsuite, hinverts⟩ := hcipher hnone
    have hk : sealing.keyed? suite = some (keyed sealing.key) := by
      rw [Sealing.keyed?, hsuite, Option.map_some]
    rw [← hkey] at hinverts
    obtain ⟨ciphertext, hencrypt, hdecrypt, hleast⟩ :=
      Sealing.restores (decide_eq_true hnone) hk hinverts text
    exact ⟨ciphertext, (runText_encrypt ht).trans hencrypt, (runText_decrypt hafter).trans hdecrypt,
      fun _ => hleast⟩

/-- A session that has failed to decrypt something under another cipher. -/
def worn : CipherSession :=
  CipherSession.after .full { sealing := some ⟨.des, ascii "01234567", ascii "76543210", rfl, rfl⟩ }
    .decrypt (.ready (ascii "odd")) .ready

/-- It is initialized with a key that is too long, then refuses one that is too short, and has no
room for what it is to write. -/
theorem serves_of_initialize?_worn : ∃ s' fresh,
    worn.initialize? .aes (ascii "abcdefghijklmnopqrstuvwxyz") (ascii "0123456789012345") = .ok s' ∧
      s'.initialize? .aes (ascii "a") (ascii "0123456789012345") = .error (.keyTooShort .aes) ∧
      initialize? .aes (ascii "abcdefghijklmnopqrstuvwx") (ascii "0123456789012345") {} =
        .ok fresh ∧
      Serves .full .aes fresh (s'.after .full .encrypt (.ready (ascii "odd")) .full) := by
  have hrefused (s : CipherSession) : s.initialize? .aes (ascii "a") (ascii "0123456789012345") =
      .error (.keyTooShort .aes) := rfl
  have hinit : worn.initialize? .aes (ascii "abcdefghijklmnopqrstuvwxyz")
      (ascii "0123456789012345") = .ok { worn with
        sealing := some ⟨.aes, ascii "abcdefghijklmnopqrstuvwx", ascii "0123456789012345", rfl,
          rfl⟩ } := rfl
  obtain ⟨fresh, hfresh, hserves⟩ := serves_of_initialize? hinit
    ((Further.here.refused (hrefused _)).work .encrypt (.ready (ascii "odd")) .full)
    fun hnone => Suite.full_inverts hnone _
  exact ⟨_, fresh, hinit, hrefused _, hfresh, hserves⟩

end CipherSession

end Gntp
