import Gntp.Proofs.CipherSessions
import Gntp.Proofs.Course
import Gntp.Proofs.Framing
import Gntp.Proofs.Grammar
import Gntp.Proofs.Phases

/-!
# How many steps a reading takes

Every step takes a byte or a queued line off the input (`Reading.lessens_of_advance`), also the
one that opens a sealed block: a text has no more lines than its ciphertext and the blank line
behind it have bytes. So the reading of a request is over after no more steps than there are bytes,
and one that fails (`Reading.parse_halts`).
-/

namespace Gntp

open Gntp.Action

/-! ## The length of what is opened -/

theorem Bytes.length_xor_le (s t : Bytes) : (xor s t).length ≤ t.length := by
  rw [xor, List.length_zipWith]
  exact Nat.min_le_right _ _

theorem Bytes.length_le_of_unpad? {size : Nat} {block text : Bytes}
    (h : unpad? size block = some text) : text.length ≤ block.length := by
  unfold unpad? at h
  split at h
  · cases h
  · dsimp only at h
    split at h
    · cases h
      exact List.length_take_le' _ _
    · cases h

namespace BlockCipher

variable {c : BlockCipher} {size : Nat} {iv text body tail : Bytes} {blocks : List Bytes}

open Bytes

/-- Whatever a block is decrypted into, no more of it is left than there is of the mask. -/
theorem length_flatten_unchain_le (hiv : iv.length = size) (h : Blocks size blocks) :
    (c.unchain iv blocks).flatten.length ≤ blocks.flatten.length := by
  induction blocks using List.reverseRecOn with
  | nil => exact Nat.le_refl 0
  | append_singleton blocks block ih =>
    obtain ⟨h, hblock⟩ := blocks_append_singleton.1 h
    have hlast := length_xor_le (c.decrypt block) (blocks.getLast?.getD iv)
    rw [length_mask h hiv, ← hblock] at hlast
    simp only [unchain_append_singleton, List.flatten_append, List.flatten_singleton,
      List.length_append]
    exact Nat.add_le_add (ih h) hlast

theorem length_le_of_decipher (hpos : 0 < size) (hiv : iv.length = size)
    (h : c.decipher size iv text = (body, some tail)) : (body ++ tail).length ≤ text.length := by
  by_cases hne : text = []
  · subst hne
    rw [decipher, chunks_nil] at h
    cases h
  · obtain ⟨blocks, last, rfl, hblocks, hlast, hle⟩ := exists_last_block hpos hne
    rw [decipher_eq hpos hblocks hlast hle] at h
    obtain ⟨rfl, htail⟩ := Prod.mk.inj h
    split at htail
    · next hwhole =>
      have hxor := length_xor_le (c.decrypt last) (blocks.getLast?.getD iv)
      rw [length_mask hblocks hiv, ← hwhole] at hxor
      rw [List.length_append, List.length_append]
      exact Nat.add_le_add (length_flatten_unchain_le hiv hblocks)
        ((length_le_of_unpad? htail).trans hxor)
    · cases htail

end BlockCipher

/-- A text is not longer than its ciphertext. -/
theorem Sealing.length_le_of_decrypt {suite : Suite} {sealing : Sealing} {block text : Bytes}
    (he : sealing.enabled = true) (h : sealing.decrypt suite block = .ok text) :
    text.length ≤ block.length := by
  cases hk : sealing.keyed? suite with
  | none =>
    rw [decrypt, he, unsealParts, hk] at h
    cases h
  | some c =>
    rw [decrypt_of_keyed he hk] at h
    split at h
    · next out hout =>
      cases h
      obtain ⟨tail, htail, rfl⟩ := Option.map_eq_some_iff.1 hout
      exact BlockCipher.length_le_of_decipher (blockSize_pos he) sealing.iv_length
        (Prod.ext rfl htail)
    · cases h

namespace Inbound

open Bytes

variable {suite : Suite} {sealing : Sealing} {i i' : Inbound}

theorem length_linesOf_le (text : Bytes) : (linesOf text).length ≤ text.length + 1 := by
  have hfields : (splitOn lf text).length ≤ text.length + 1 := by
    rw [length_splitOn]
    exact Nat.succ_le_succ List.count_le_length
  unfold linesOf
  dsimp only
  rw [List.length_map]
  split
  · rw [List.length_dropLast]
    omega
  · exact hfields

theorem length_closed_le (lines : List Bytes) : (closed lines).length ≤ lines.length + 1 := by
  unfold closed
  split
  · omega
  · rw [List.length_append, List.length_singleton]

/-- The blank line behind a sealed block has more bytes than can be queued beside those of the
block. -/
theorem remaining_le_of_takeSealedBlock (h : takeSealedBlock suite sealing i = .ok () i') :
    i'.remaining ≤ i.remaining := by
  by_cases he : sealing.enabled = true
  · obtain ⟨block, text, rest, _, _, hopened, hunread, rfl⟩ := (takeSealedBlock_eq_ok he).1 h
    have htext := Sealing.length_le_of_decrypt he hopened
    have hlines := length_linesOf_le text
    have hclosed := length_closed_le (i.queued ++ linesOf text)
    have hblank : blankLine.length = 4 := rfl
    rw [List.length_append] at hclosed
    simp only [remaining, hunread, List.length_append]
    omega
  · rw [takeSealedBlock, if_pos he] at h
    cases h
    exact Nat.le_refl _

end Inbound

namespace Reading

variable {gate : Gate} {r r' : Reading} {phase : Phase}

/-! ## What a step takes -/

/-- The request line is taken off the input, and no more is queued than is opened. -/
theorem remaining_lt_of_readRequestLine (h : readRequestLine gate r = .ok phase r') :
    r'.inbound.remaining < r.inbound.remaining := by
  obtain ⟨text, inbound, line, access, r₁, htake, _, _, hgrant, hopen, _⟩ :=
    readRequestLine_eq_ok.1 h
  have hkeeps : Keeps Reading.inbound (grant gate line access) :=
    grant_keeps (fun _ _ _ => rfl) line access
  have hgranted : r₁.inbound = inbound := hkeeps.of_ok hgrant
  obtain ⟨_, r₂, hget, hopen⟩ := bind_eq_ok.1 hopen
  cases hget
  obtain ⟨opened, hopened, rfl⟩ := onInbound_eq_ok.1 hopen
  calc opened.remaining
    _ ≤ r₁.inbound.remaining := Inbound.remaining_le_of_takeSealedBlock hopened
    _ = inbound.remaining := by rw [hgranted]
    _ < r.inbound.remaining := Inbound.remaining_lt_of_takeLine htake

/-- Every step takes something off the input, in whatever phase. -/
theorem lessens_of_advance (h : advance gate r = .ok () r') :
    r'.inbound.remaining < r.inbound.remaining := by
  obtain hp | hp := begun_of_advance h
  · rw [advance_of_requestLine hp] at h
    obtain ⟨phase, r₁, hline, h⟩ := bind_eq_ok.1 h
    have hlt := remaining_lt_of_readRequestLine hline
    cases h
    exact hlt
  · exact remaining_lt_of_advance h hp

/-! ## Many steps -/

variable {n : Nat} {r₁ : Reading} {failure : Failure}

/-- So many steps lead from a reading to another one. -/
inductive Steps (gate : Gate) (r : Reading) : Nat → Reading → Prop
  | refl : Steps gate r 0 r
  | step {n : Nat} {r₁ r₂ : Reading} : Steps gate r n r₁ → advance gate r₁ = .ok () r₂ →
    Steps gate r (n + 1) r₂

theorem Steps.head (h : advance gate r = .ok () r₁) (hsteps : Steps gate r₁ n r') :
    Steps gate r (n + 1) r' := by
  induction hsteps with
  | refl => exact .step .refl h
  | step _ hlast ih => exact ih.step hlast

theorem Steps.add_remaining_le (h : Steps gate r n r') :
    n + r'.inbound.remaining ≤ r.inbound.remaining := by
  induction h with
  | refl => rw [Nat.zero_add]
  | step _ hlast ih =>
    have hlt := lessens_of_advance hlast
    omega

theorem phase_ne_of_advance (h : advance gate r = .ok () r') : r'.phase ≠ .requestLine := by
  intro heq
  obtain hp | hp := Phase.begun_of_mem_next (mem_next_of_advance h) <;> rw [heq] at hp <;> cases hp

theorem Steps.phase_eq_iff (h : Steps gate r n r') (hr : r.phase = .requestLine) :
    r'.phase = .requestLine ↔ n = 0 := by
  cases h with
  | refl => exact ⟨fun _ => rfl, fun _ => hr⟩
  | step _ hlast => exact ⟨fun hp => absurd hp (phase_ne_of_advance hlast), nofun⟩

/-- How a reading ends, once it is over. -/
def outcome : EStateM.Result Failure Reading Unit → EStateM.Result Failure Reading (Option Request)
  | .ok _ r => .ok (some r.request) r
  | .error (.truncated _) r => .ok none r
  | .error failure r => .error failure r

/-- So many steps are taken until the request is complete, or up to the step that fails. It fails
at the end of the input, or otherwise. -/
inductive Makes (gate : Gate) (r : Reading) :
    Nat → EStateM.Result Failure Reading (Option Request) → Prop
  | completes {n : Nat} {r' : Reading} : Steps gate r n r' → r'.phase = .complete →
    Makes gate r n (.ok (some r'.request) r')
  | runsOut {n : Nat} {r₁ r' : Reading} {place : Truncation} : Steps gate r n r₁ →
    r₁.phase ≠ .complete → advance gate r₁ = .error (.truncated place) r' →
    Makes gate r (n + 1) (.ok none r')
  | fails {n : Nat} {r₁ r' : Reading} {failure : Failure} : Steps gate r n r₁ →
    r₁.phase ≠ .complete → advance gate r₁ = .error failure r' →
    (∀ place, failure ≠ .truncated place) → Makes gate r (n + 1) (.error failure r')

theorem Makes.of_failure (hp : r.phase ≠ .complete) (h : advance gate r = .error failure r') :
    Makes gate r 1 (outcome (.error failure r')) := by
  cases failure with
  | truncated place => exact .runsOut .refl hp h
  | _ => exact .fails .refl hp h nofun

theorem Makes.head {result : EStateM.Result Failure Reading (Option Request)}
    (h : advance gate r = .ok () r₁) (hmakes : Makes gate r₁ n result) :
    Makes gate r (n + 1) result := by
  cases hmakes with
  | completes hsteps hp => exact .completes (hsteps.head h) hp
  | runsOut hsteps hp hfails => exact .runsOut (hsteps.head h) hp hfails
  | fails hsteps hp hfails hfailure => exact .fails (hsteps.head h) hp hfails hfailure

/-- The loop is over after a number of steps. -/
theorem exists_makes_proceed (gate : Gate) (h : r.phase.isUnderWay ∨ r.phase = .complete) :
    ∃ n, Makes gate r n (outcome (proceed gate r)) := by
  induction r using proceed.induct gate with
  | case1 r hp _ r₁ h₁ ih =>
    obtain ⟨n, hmakes⟩ := ih (Phase.begun_of_mem_next (mem_next_of_advance h₁))
    rw [proceed_of_advance hp h₁]
    exact ⟨n + 1, hmakes.head h₁⟩
  | case2 r hp failure r₁ h₁ =>
    have hne : r.phase ≠ .complete := fun heq => by rw [heq] at hp; cases hp
    rw [proceed_of_failure hp h₁]
    exact ⟨1, .of_failure hne h₁⟩
  | case3 r hp =>
    rw [proceed_of_over hp]
    exact ⟨0, .completes .refl (h.resolve_left hp)⟩

/-- A whole reading is over after a number of steps. -/
theorem exists_makes_parse (hp : r.phase = .requestLine) : ∃ n, Makes gate r n (parse gate r) := by
  have hne : r.phase ≠ .complete := fun heq => by rw [heq] at hp; cases hp
  unfold parse
  rw [finish_eq hp]
  cases hline : readRequestLine gate r with
  | error failure r₁ =>
    have hadvance : advance gate r = .error failure r₁ := by
      rw [advance_of_requestLine hp, bind_of_error hline]
    have hmakes := Makes.of_failure hne hadvance
    cases failure <;> exact ⟨1, hmakes⟩
  | ok phase r₁ =>
    have hadvance := advance_of_readRequestLine hp hline
    obtain ⟨n, hmakes⟩ := exists_makes_proceed gate
      (Phase.begun_of_mem_next (mem_next_of_advance hadvance))
    have hmakes := hmakes.head hadvance
    dsimp only
    cases hloop : proceed gate { r₁ with phase } with
    | ok _ r₂ =>
      rw [hloop] at hmakes
      exact ⟨n + 1, hmakes⟩
    | error failure r₂ =>
      rw [hloop] at hmakes
      cases failure <;> exact ⟨n + 1, hmakes⟩

theorem Makes.le {result : EStateM.Result Failure Reading (Option Request)}
    (h : Makes gate r n result) : n ≤ r.inbound.remaining + 1 := by
  cases h with
  | completes hsteps =>
    have hle := hsteps.add_remaining_le
    omega
  | runsOut hsteps | fails hsteps =>
    have hle := hsteps.add_remaining_le
    omega

/-- The reading of a request ends, and soon enough. -/
structure Halts (gate : Gate) (input : Bytes) (store : Store) : Prop where
  ends : ∃ n, Makes gate (start input store) n (parse gate (start input store))
  soon : ∀ n result, Makes gate (start input store) n result → n ≤ input.length + 1
  /-- The request line is left by the first step, for good. -/
  once : ∀ n r, Steps gate (start input store) n r → (r.phase = .requestLine ↔ n = 0)
  never_again : ∀ r r', advance gate r = .ok () r' → r'.phase ≠ .requestLine
  /-- In every phase, a step that does not fail takes something off the input. -/
  lessens : ∀ r r', advance gate r = .ok () r' → r'.inbound.remaining < r.inbound.remaining

/-- Whatever arrives, its reading is over after at most one step for each byte and one more. -/
theorem parse_halts (gate : Gate) (input : Bytes) (store : Store) : Halts gate input store where
  ends := exists_makes_parse rfl
  soon _ _ h := h.le
  once _ _ h := h.phase_eq_iff rfl
  never_again _ _ := phase_ne_of_advance
  lessens _ _ := lessens_of_advance

end Reading

end Gntp
