import Gntp.Proofs.CipherSessions

/-!
# Sources and drains that fail

A session that reads from a source and writes to a drain returns when the drain has taken all that
comes of the source, and says so otherwise (`run_of_initialized`). Two things go unsaid: without a
cipher, a source that breaks looks like one that has ended, and with a cipher, a drain may take all
and not let it out when it is flushed in the end (`not_reported_of_broken`).
-/

namespace Gntp

namespace FaultKind

/-- The kinds of fault that a cipher has. -/
def ofCiphers : List FaultKind := [crypto, initialization, encryption, decryption]

end FaultKind

theorem CipherFault.kind_mem (fault : CipherFault) : fault.kind ∈ FaultKind.ofCiphers := by
  cases fault <;> decide

namespace Drain

variable {drain : Drain}

/-- All that is held back gets out. -/
theorem flush_of_passed (h : ∀ n, drain.outlet = some n → drain.held.length ≤ n) :
    drain.flush = { drain with
      outlet := drain.outlet.map (· - drain.held.length)
      written := drain.written ++ drain.held
      held := [] } := by
  obtain ⟨failed, room, outlet, written, held⟩ := drain
  cases outlet with
  | none => rfl
  | some n =>
    have hn : held.length ≤ n := h n rfl
    simp [flush, hn]

theorem flush_of_stuck {n : Nat} (houtlet : drain.outlet = some n) (hn : n < drain.held.length) :
    drain.flush = { drain with
      failed := true
      outlet := some 0
      written := drain.written ++ drain.held.take n
      held := drain.held.drop n } := by
  simp [flush, houtlet, hn, Nat.sub_eq_zero_of_le (Nat.le_of_lt hn)]

end Drain

namespace InContext

variable {suite : Suite} {sealing : Sealing} {direction : Direction} {text : Bytes}
  {drain : Drain} {context? : Option CipherContext}

theorem process_breaking (suite : Suite) (sealing : Sealing) (direction : Direction) (text : Bytes)
    (drain : Drain) : process suite sealing direction (.breaking text) drain =
      setUp suite sealing direction >>= fun _ =>
        pump (update direction) drain (Source.breaking text).pieces >>= fun _ =>
          throw .unreadable := rfl

/-- A text that breaks off is never worked into something, whatever has been written of it. -/
theorem outcome_process_breaking (he : sealing.enabled = true) : ∃ fault,
    (process suite sealing direction (.breaking text) drain).outcome context? = .error fault := by
  rw [process_breaking]
  cases hk : sealing.keyed? suite with
  | none =>
    rw [outcome_bind_of_error (setUp_of_unavailable he hk)]
    exact ⟨_, rfl⟩
  | some block =>
    rw [outcome_bind_of_ok (setUp_of_keyed he hk)]
    cases hpump : pump (update direction) drain (Source.breaking text).pieces
        (some (initial sealing direction block)) with
    | ok drain' context₁? =>
      rw [outcome_bind_of_ok hpump]
      exact ⟨_, rfl⟩
    | error fault context₁? =>
      rw [outcome_bind_of_error hpump]
      exact ⟨_, rfl⟩

end InContext

namespace CipherSession

open InContext

variable {suite : Suite} {s : CipherSession} {sealing : Sealing} {direction : Direction}
  {source : Source} {drain left : Drain} {text out : Bytes}

/-- What comes of a source: all that its text is worked into. Of a source that breaks nothing comes,
unless there is no cipher: then it is what was read before, in whole buffers. -/
inductive Yields (suite : Suite) (s : CipherSession) (direction : Direction) :
    Source → Bytes → Prop
  | whole {text out : Bytes} : s.runText suite direction text = .ok out →
    Yields suite s direction (.ready text) out
  | torn (text : Bytes) : s.cipher = .none →
    Yields suite s direction (.breaking text) (text.take (8192 * (text.length / 8192)))

/-- How a call that returns leaves a drain that has taken what comes of the source. Without a cipher
the drain is not flushed. With a cipher it is, and what it cannot let out stays in it. -/
inductive Leaves (s : CipherSession) (drain : Drain) (out : Bytes) : Drain → Prop
  | held : s.cipher = .none → Leaves s drain out { drain with
      room := drain.room.map (· - out.length)
      held := drain.held ++ out }
  | passed : s.cipher ≠ .none →
    (∀ n, drain.outlet = some n → (drain.held ++ out).length ≤ n) → Leaves s drain out { drain with
      room := drain.room.map (· - out.length)
      outlet := drain.outlet.map (· - (drain.held ++ out).length)
      written := drain.written ++ (drain.held ++ out)
      held := [] }
  | stuck {n : Nat} : s.cipher ≠ .none → drain.outlet = some n →
    n < (drain.held ++ out).length → Leaves s drain out {
      failed := true
      room := drain.room.map (· - out.length)
      outlet := some 0
      written := drain.written ++ (drain.held ++ out).take n
      held := (drain.held ++ out).drop n }

theorem yields_ready : Yields suite s direction (.ready text) out ↔
    s.runText suite direction text = .ok out := by
  refine ⟨fun h => ?_, .whole⟩
  cases h
  assumption

theorem yields_breaking : Yields suite s direction (.breaking text) out ↔
    s.cipher = .none ∧ out = (Source.breaking text).pieces.flatten := by
  have hpieces : (Source.breaking text).pieces.flatten =
      text.take (8192 * (text.length / 8192)) := Bytes.flatten_whole_chunks (by decide) text
  rw [hpieces]
  constructor
  · intro h
    cases h
    exact ⟨‹_›, rfl⟩
  · rintro ⟨hclear, rfl⟩
    exact .torn text hclear

theorem not_yields_spent : ¬ Yields suite s direction .spent out := nofun

theorem cipher_eq (hs : s.sealing = some sealing) : s.cipher = sealing.cipher := by
  rw [cipher, hs, Option.getD_some]

theorem enabled_eq_true (hs : s.sealing = some sealing) :
    sealing.enabled = true ↔ s.cipher ≠ .none := by
  rw [cipher_eq hs, Sealing.enabled, decide_eq_true_iff]

theorem enabled_eq_false (hs : s.sealing = some sealing) :
    sealing.enabled = false ↔ s.cipher = .none := by
  rw [cipher_eq hs, Sealing.enabled, decide_eq_false_iff_not, not_not]

/-! ## What is done in the end -/

/-- The drain in the end, if it has taken everything. -/
def settle (s : CipherSession) (drain : Drain) : Drain :=
  if s.cipher = .none then drain else drain.flush

theorem settle_eq (hs : s.sealing = some sealing) :
    s.settle = if sealing.enabled then Drain.flush else id := by
  funext drain
  unfold settle
  cases he : sealing.enabled with
  | false => exact if_pos ((enabled_eq_false hs).1 he)
  | true => exact if_neg ((enabled_eq_true hs).1 he)

theorem taken_settle (s : CipherSession) (drain : Drain) :
    (s.settle drain).taken = drain.taken := by
  unfold settle
  split
  · rfl
  · exact drain.taken_flush

theorem leaves_iff (hdrain : drain.failed = false) :
    Leaves s drain out left ↔ left = s.settle (drain.filled out) := by
  have hsettle (hcipher : s.cipher ≠ .none) : s.settle (drain.filled out) =
      (drain.filled out).flush := if_neg hcipher
  constructor
  · intro h
    cases h with
    | held hclear => exact (if_pos hclear).symm
    | passed hcipher hout => rw [hsettle hcipher, Drain.flush_of_passed hout]; rfl
    | stuck hcipher houtlet hn =>
      have hstuck : (drain.filled out).flush = _ := Drain.flush_of_stuck houtlet hn
      rw [hsettle hcipher, hstuck]
      simp [Drain.filled, hdrain]
  · rintro rfl
    by_cases hclear : s.cipher = .none
    · rw [settle, if_pos hclear]
      exact .held hclear
    · rw [hsettle hclear]
      by_cases hout : ∀ n, drain.outlet = some n → (drain.held ++ out).length ≤ n
      · rw [Drain.flush_of_passed hout]
        exact .passed hclear hout
      · simp only [not_forall, Nat.not_le] at hout
        obtain ⟨n, houtlet, hn⟩ := hout
        have hstuck : (drain.filled out).flush = _ := Drain.flush_of_stuck houtlet hn
        rw [hstuck]
        exact .stuck hclear houtlet hn

/-! ## Streams at hand -/

theorem drained_of_bad (hs : s.sealing = some sealing)
    (h : source = .spent ∨ drain.failed = true) :
    s.drained suite direction source drain = .error .badStreamState := by
  rw [drained, work, hs]
  dsimp only
  rw [if_pos h]
  rfl

theorem drained_of_good (hs : s.sealing = some sealing) (hsource : source ≠ .spent)
    (hdrain : drain.failed = false) : s.drained suite direction source drain =
      ((if sealing.enabled then process suite sealing direction source drain
        else write drain source.pieces.flatten).outcome s.context?).map s.settle := by
  rw [drained, work, hs]
  dsimp only
  rw [if_neg (by simp [hsource, hdrain]), pump_pure, settle_eq hs]
  cases sealing.enabled with
  | true => exact outcome_map _ _ _
  | false => exact (congrFun Except.map_id _).symm

/-- Without a cipher all that can be read is copied. -/
theorem drained_of_clear (hs : s.sealing = some sealing) (he : sealing.enabled = false)
    (hsource : source ≠ .spent) (hdrain : drain.failed = false) :
    s.drained suite direction source drain =
      ((write drain source.pieces.flatten).outcome s.context?).map s.settle := by
  rw [drained_of_good hs hsource hdrain, he, if_neg Bool.false_ne_true]

theorem drained_of_enabled (hs : s.sealing = some sealing) (he : sealing.enabled = true)
    (hsource : source ≠ .spent) (hdrain : drain.failed = false) :
    s.drained suite direction source drain =
      ((process suite sealing direction source drain).outcome s.context?).map s.settle := by
  rw [drained_of_good hs hsource hdrain, if_pos he]

/-! ## Texts that come from a source -/

/-- A text that is worked into something is written as that. -/
theorem drained_of_ok (hs : s.sealing = some sealing) (hdrain : drain.failed = false)
    (hout : s.runText suite direction text = .ok out) :
    s.drained suite direction (.ready text) drain =
      ((write drain out).outcome s.context?).map s.settle := by
  cases he : sealing.enabled with
  | false =>
    rw [runText_of_clear hs he] at hout
    obtain rfl := Except.ok.inj hout
    rw [drained_of_clear hs he (by simp) hdrain, Source.pieces, Bytes.flatten_chunks]
  | true =>
    cases hk : sealing.keyed? suite with
    | none =>
      rw [runText_of_unavailable hs he hk] at hout
      cases hout
    | some block =>
      rw [runText_of_keyed hs he hk] at hout
      rw [drained_of_enabled hs he (by simp) hdrain]
      cases hworked : (initial sealing direction block).worked text with
      | some out' =>
        rw [hworked] at hout
        obtain rfl := Except.ok.inj hout
        rw [outcome_process he hk hworked]
      | none =>
        rw [hworked] at hout
        cases hout

/-- A text that cannot be worked on is told so, unless there is no room for what comes first. -/
theorem drained_of_error {fault : CipherFault} (hs : s.sealing = some sealing)
    (hdrain : drain.failed = false) (hfault : s.runText suite direction text = .error fault) :
    s.drained suite direction (.ready text) drain = .error fault ∨
      drain.room ≠ none ∧ s.drained suite direction (.ready text) drain = .error .unwritable := by
  cases he : sealing.enabled with
  | false =>
    rw [runText_of_clear hs he] at hfault
    cases hfault
  | true =>
    rw [drained_of_enabled hs he (by simp) hdrain]
    cases hk : sealing.keyed? suite with
    | none =>
      rw [runText_of_unavailable hs he hk] at hfault
      obtain rfl := Except.error.inj hfault
      rw [process_ready, outcome_bind_of_error (setUp_of_unavailable he hk)]
      exact .inl rfl
    | some block =>
      rw [runText_of_keyed hs he hk] at hfault
      cases hworked : (initial sealing direction block).worked text with
      | some out =>
        rw [hworked] at hfault
        cases hfault
      | none =>
        rw [hworked] at hfault
        obtain rfl := Except.error.inj hfault
        rcases outcome_process_of_unfinished he hk hworked with h | ⟨hroom, h⟩
        · rw [h]
          exact .inl rfl
        · rw [h]
          exact .inr ⟨hroom, rfl⟩

/-! ## What is written -/

theorem map_outcome_write_eq_ok {context? : Option CipherContext} {f : Drain → Drain} :
    ((write drain out).outcome context?).map f = .ok left ↔
      drain.Takes out ∧ left = f (drain.filled out) := by
  by_cases h : drain.Takes out
  · rw [outcome_write_of_takes h]
    exact ⟨fun heq => ⟨h, (Except.ok.inj heq).symm⟩, fun ⟨_, heq⟩ => congrArg Except.ok heq.symm⟩
  · rw [outcome_write_of_not_takes h]
    exact ⟨nofun, fun ⟨htakes, _⟩ => absurd htakes h⟩

theorem drained_ready_eq_ok (hs : s.sealing = some sealing) (hdrain : drain.failed = false) :
    s.drained suite direction (.ready text) drain = .ok left ↔
      ∃ out, s.runText suite direction text = .ok out ∧ drain.Takes out ∧
        left = s.settle (drain.filled out) := by
  cases hout : s.runText suite direction text with
  | ok out =>
    rw [drained_of_ok hs hdrain hout, map_outcome_write_eq_ok]
    constructor
    · exact fun h => ⟨out, rfl, h⟩
    · rintro ⟨_, hsame, h⟩
      obtain rfl := Except.ok.inj hsame
      exact h
  | error fault =>
    refine ⟨fun hdrained => ?_, nofun⟩
    rcases drained_of_error hs hdrain hout with h | ⟨_, h⟩ <;> cases h.symm.trans hdrained

theorem drained_breaking_eq_ok (hs : s.sealing = some sealing) (hdrain : drain.failed = false) :
    s.drained suite direction (.breaking text) drain = .ok left ↔
      s.cipher = .none ∧ drain.Takes (Source.breaking text).pieces.flatten ∧
        left = s.settle (drain.filled (Source.breaking text).pieces.flatten) := by
  rw [← enabled_eq_false hs]
  cases he : sealing.enabled with
  | false =>
    rw [drained_of_clear hs he (by simp) hdrain, map_outcome_write_eq_ok, eq_self_iff_true,
      true_and]
  | true =>
    obtain ⟨fault, hfault⟩ : ∃ fault, (process suite sealing direction (.breaking text)
        drain).outcome s.context? = .error fault := outcome_process_breaking he
    rw [drained_of_enabled hs he (by simp) hdrain, hfault]
    simp [Except.map]

/-- A session returns when what comes of the source has all been taken. -/
theorem drained_eq_ok (hs : s.sealing = some sealing) :
    s.drained suite direction source drain = .ok left ↔
      drain.failed = false ∧ ∃ out, Yields suite s direction source out ∧ drain.Takes out ∧
        Leaves s drain out left := by
  cases hdrain : drain.failed with
  | true =>
    rw [drained_of_bad hs (.inr hdrain)]
    simp
  | false =>
    simp only [leaves_iff hdrain, true_and]
    cases source with
    | ready text =>
      rw [drained_ready_eq_ok hs hdrain]
      exact exists_congr fun out => and_congr_left' yields_ready.symm
    | breaking text =>
      rw [drained_breaking_eq_ok hs hdrain]
      simp [yields_breaking, and_assoc]
    | spent =>
      rw [drained_of_bad hs (.inl rfl)]
      simp [not_yields_spent]

/-- A drain that takes everything gets what a byte string is worked into, behind what it has. -/
theorem run_of_unlimited (hs : s.sealing = some sealing) (hdrain : drain.failed = false)
    (hroom : drain.room = none) : s.run suite direction (.ready text) drain =
      (s.runText suite direction text).map (drain.taken ++ ·) := by
  cases hout : s.runText suite direction text with
  | ok out =>
    rw [run, drained_of_ok hs hdrain hout,
      outcome_write_of_takes (Drain.takes_of_unlimited hroom out)]
    refine congrArg Except.ok ?_
    rw [taken_settle, Drain.taken_filled]
  | error fault =>
    rcases drained_of_error hs hdrain hout with h | ⟨hlimited, _⟩
    · rw [run, h]
      rfl
    · exact absurd hroom hlimited

/-- Every source and every drain is given an account of: a session returns when the drain has taken
all that comes of the source. With a drain that takes everything it does what it does for a byte
string, and whatever goes wrong is a fault of a cipher. -/
theorem run_of_initialized (hs : s.sealing = some sealing) (suite : Suite)
    (direction : Direction) :
    (∀ source drain left, s.drained suite direction source drain = .ok left ↔
      drain.failed = false ∧ ∃ out, Yields suite s direction source out ∧ drain.Takes out ∧
        Leaves s drain out left) ∧
    (∀ text drain, drain.failed = false → drain.room = none →
      s.run suite direction (.ready text) drain =
        (s.runText suite direction text).map (drain.written ++ drain.held ++ ·)) ∧
    ∀ source drain fault, s.drained suite direction source drain = .error fault →
      fault.kind ∈ FaultKind.ofCiphers := by
  refine ⟨fun source drain left => ?_, fun text drain hdrain hroom => ?_,
    fun source drain fault _ => ?_⟩
  · exact drained_eq_ok hs
  · exact run_of_unlimited hs hdrain hroom
  · exact fault.kind_mem

/-- DES with a key and a vector. -/
def sampleSealing : Sealing := ⟨.des, ascii "some key", ascii "a vector", rfl, rfl⟩

def sample : CipherSession := { sealing := some sampleSealing }

/-- The padding of an empty text is a block. -/
theorem exists_padding : ∃ out, sample.runText .full .encrypt [] = .ok out ∧ 8 ≤ out.length := by
  have hkeyed : sampleSealing.keyed? .full = some (Cipher.des.keyed (ascii "some key")) := rfl
  obtain ⟨ciphertext, hencrypt, _, ⟨hdvd, hpos⟩, _⟩ :=
    Sealing.restores rfl hkeyed (Cipher.inverts_des _) []
  have hsample : sample.sealing = some sampleSealing := rfl
  exact ⟨ciphertext, (runText_encrypt hsample).trans hencrypt, Nat.le_of_dvd hpos hdvd⟩

/-- A source that breaks, a drain without room for the padding, one that does not let it out, and
one with other things in it. -/
theorem run_of_initialized_sample :
    (∃ fault, sample.drained .full .encrypt (.breaking (ascii "abc")) .ready = .error fault ∧
      fault.kind ∈ FaultKind.ofCiphers) ∧
    (∃ fault, sample.drained .full .encrypt (.ready []) { room := some 7 } = .error fault ∧
      fault.kind ∈ FaultKind.ofCiphers) ∧
    (∃ left, sample.drained .full .encrypt (.ready []) { outlet := some 7 } = .ok left ∧
      left.failed = true) ∧
    sample.run .full .encrypt (.ready (ascii "abc")) { written := ascii "x" } =
      (sample.runText .full .encrypt (ascii "abc")).map (ascii "x" ++ [] ++ ·) := by
  have hs : sample.sealing = some sampleSealing := rfl
  obtain ⟨hok, hready, hkind⟩ := run_of_initialized hs .full .encrypt
  obtain ⟨padding, hpadding, hlong⟩ := exists_padding
  have hfault {source : Source} {drain : Drain}
      (h : ∀ out, Yields .full sample .encrypt source out → ¬ drain.Takes out) :
      ∃ fault, sample.drained .full .encrypt source drain = .error fault ∧
        fault.kind ∈ FaultKind.ofCiphers := by
    cases hdrained : sample.drained .full .encrypt source drain with
    | ok left =>
      obtain ⟨_, out, hyields, htakes, _⟩ := (hok source drain left).1 hdrained
      exact absurd htakes (h out hyields)
    | error fault => exact ⟨fault, rfl, hkind _ _ _ hdrained⟩
  refine ⟨hfault ?_, hfault ?_, ?_, hready _ _ rfl rfl⟩
  · intro out hyields
    cases (yields_breaking.1 hyields).1
  · intro out hyields htakes
    obtain rfl := Except.ok.inj (hpadding.symm.trans (yields_ready.1 hyields))
    exact absurd (htakes 7 rfl) (Nat.not_le_of_lt hlong)
  · exact ⟨_, (hok _ _ _).2 ⟨rfl, padding, .whole hpadding, Drain.takes_of_unlimited rfl _,
      .stuck (by decide) rfl hlong⟩, rfl⟩

/-- Without a cipher, a source that breaks is taken for one that has ended; and with a cipher, a
drain that fails when it is flushed is not looked at again. -/
theorem not_reported_of_broken :
    (¬ ∀ (suite : Suite) (s : CipherSession) (sealing : Sealing) (direction : Direction)
      (text : Bytes), s.sealing = some sealing →
        ∃ fault, s.run suite direction (.breaking text) .ready = .error fault) ∧
    ¬ ∀ (suite : Suite) (s : CipherSession) (sealing : Sealing) (direction : Direction)
      (text : Bytes) (drain left : Drain), s.sealing = some sealing →
        s.drained suite direction (.ready text) drain = .ok left → left.failed = false := by
  constructor
  · intro h
    let s : CipherSession := { sealing := some .clear }
    obtain ⟨fault, hfault⟩ := h .full s .clear .encrypt (ascii "abc") rfl
    have hdrained : s.drained .full .encrypt (.breaking (ascii "abc")) .ready = _ :=
      drained_of_clear rfl rfl (by simp) rfl
    rw [run, hdrained, outcome_write_of_takes (Drain.takes_of_unlimited rfl _)] at hfault
    cases hfault
  · intro h
    have hs : sample.sealing = some sampleSealing := rfl
    obtain ⟨padding, hpadding, hlong⟩ := exists_padding
    have hstuck : Leaves sample { outlet := some 7 } padding _ := .stuck (by decide) rfl hlong
    have hdrained : sample.drained .full .encrypt (.ready []) { outlet := some 7 } = .ok _ :=
      (drained_eq_ok hs).2
        ⟨rfl, padding, .whole hpadding, Drain.takes_of_unlimited rfl _, hstuck⟩
    cases h _ _ _ _ _ _ _ hs hdrained

end CipherSession

end Gntp
