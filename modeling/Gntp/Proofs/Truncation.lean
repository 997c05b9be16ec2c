import Gntp.Proofs.Acting
import Gntp.Proofs.Counting

/-!
# Requests that are cut off

Of a request that is accepted a part is sent, and then the input ends. If a payload, a sealed block
or the next line is missing, nothing is answered and nothing is done. The input may also end in a
line (`Inbound.InLine`): the last line of an input needs no line feed, so it is taken like any other
line, and the request is handled as if the line feed had come (`handle_truncated`).

`Breakable` says both of one action, and of the states in which the input of that action ends in a
line. The rules for it follow the text of the actions.
-/

namespace Gntp

open Gntp.Action Fed Counted Bytes

/-! ## Actions -/

/-- Given less than it takes, an action misses what is missing, unless the input ends in a line. -/
def Breaks {σ α : Type} [Fed σ] (x : Action σ α) (inLine : σ → Prop) (s : σ) : Prop :=
  ∀ a s' begun missing, x s = .ok a s' → unread s = begun ++ missing ++ unread s' → missing ≠ [] →
    (∃ place s'', x (refeed begun s) = .error (.truncated place) s'') ∨ inLine (refeed begun s)

/-- If the input ends in a line, an action makes the same of it as with a line feed behind it. -/
def Overlooks {σ α : Type} [Fed σ] [Counted σ] (x : Action σ α) (inLine : σ → Prop) (s : σ) :
    Prop :=
  inLine s → unread s ≠ [] ∧ x (refeed (unread s ++ [lf]) s) = seen (recount 1) (x s)

/-- What an action makes of an input that ends too early, given where the input ends in a line. -/
structure Breakable {σ α : Type} [Fed σ] [Counted σ] (x : Action σ α) (inLine : σ → Prop) :
    Prop where
  isLocal : Local x
  isUncounted : Uncounted x
  breaks : ∀ s, Breaks x inLine s
  overlooks : ∀ s, Overlooks x inLine s

/-- With something missing in between, what is left is not all that there was. -/
theorem Bytes.ne_append_of_missing {begun missing rest : Bytes} (h : missing ≠ []) :
    rest ≠ begun ++ missing ++ rest := by
  intro heq
  have hnil : begun ++ missing = [] := List.self_eq_append_left.1 heq
  exact h (List.append_eq_nil_iff.1 hnil).2

/-- Two ways to split the same bytes: the second cut is behind the first one, or before it. -/
theorem Bytes.cut_of_append {first second begun missing : Bytes}
    (h : first ++ second = begun ++ missing) :
    (∃ c, begun = first ++ c ∧ second = c ++ missing) ∨ ∃ c, c ≠ [] ∧ first = begun ++ c := by
  rcases List.append_eq_append_iff.1 h with ⟨c, hbegun, hsecond⟩ | ⟨c, hfirst, hmissing⟩
  · exact .inl ⟨c, hbegun, hsecond⟩
  · cases c with
    | nil =>
      refine .inl ⟨[], ?_, hmissing.symm⟩
      rw [hfirst, List.append_nil, List.append_nil]
    | cons b c => exact .inr ⟨b :: c, List.cons_ne_nil b c, hfirst⟩

section

variable {σ α β : Type} [Fed σ] [Counted σ] {x : Action σ α} {f : α → Action σ β}
  {P R : σ → Prop} {Q : α → σ → Prop} {s : σ}

omit [Counted σ] in
/-- The input ends before the second action begins, or in what the second action takes. -/
theorem Breaks.bind (hx : Local x) (hf : ∀ a, Local (f a)) (hP : ∀ t, P t → R t)
    (hQ : ∀ t a t₁, x t = .ok a t₁ → Q a t₁ → R t) (hbefore : Breaks x P s)
    (hbehind : ∀ a s₁, x s = .ok a s₁ → Breaks (f a) (Q a) s₁) : Breaks (x >>= f) R s := by
  intro b s' begun missing h hunread hmissing
  obtain ⟨a, s₁, h₁, h₂⟩ := bind_eq_ok.1 h
  obtain ⟨first, hfirst, hsame⟩ := hx s a s₁ h₁
  obtain ⟨second, hsecond, _⟩ := hf a s₁ b s' h₂
  have hsplit : first ++ second = begun ++ missing := by
    rw [hfirst, hsecond, ← List.append_assoc] at hunread
    exact List.append_cancel_right hunread
  rcases cut_of_append hsplit with ⟨c, rfl, rfl⟩ | ⟨c, hc, rfl⟩
  · have hmore : unread s₁ ≠ [] := by
      rw [hsecond, List.append_assoc]
      exact List.append_ne_nil_of_right_ne_nil c (List.append_ne_nil_of_left_ne_nil hmissing _)
    have hagain : x (refeed (first ++ c) s) = .ok a (refeed c s₁) := hsame hmore c
    rcases hbehind a s₁ h₁ b s' c missing h₂ hsecond hmissing with ⟨place, s'', herror⟩ | hline
    · exact .inl ⟨place, s'', by rw [bind_of_ok hagain, herror]⟩
    · exact .inr (hQ _ a _ hagain hline)
  · rcases hbefore a s₁ begun c h₁ hfirst hc with ⟨place, s'', herror⟩ | hline
    · exact .inl ⟨place, s'', bind_of_error herror⟩
    · exact .inr (hP _ hline)

/-- In a line, the second action does not look at how much the first one took. -/
theorem Overlooks.bind_left (hf : ∀ a, Uncounted (f a)) (hx : Overlooks x P s) :
    Overlooks (x >>= f) P s := by
  intro hline
  obtain ⟨hne, hsame⟩ := hx hline
  refine ⟨hne, ?_⟩
  simp only [bind, EStateM.bind]
  rw [hsame]
  cases x s with
  | ok a s₁ => exact hf a 1 s₁
  | error failure s₁ => rfl

/-- A line behind what the first action took is a line of the whole input. -/
theorem Overlooks.bind_right {a : α} {s₁ : σ} (hx : Local x) (h₁ : x s = .ok a s₁)
    (hf : unread s₁ ≠ [] ∧ f a (refeed (unread s₁ ++ [lf]) s₁) = seen (recount 1) (f a s₁)) :
    unread s ≠ [] ∧
      (x >>= f) (refeed (unread s ++ [lf]) s) = seen (recount 1) ((x >>= f) s) := by
  obtain ⟨hne, hsame⟩ := hf
  obtain ⟨taken, htaken, hagain⟩ := hx s a s₁ h₁
  refine ⟨by rw [htaken]; exact List.append_ne_nil_of_right_ne_nil taken hne, ?_⟩
  have hlonger : x (refeed (unread s ++ [lf]) s) = .ok a (refeed (unread s₁ ++ [lf]) s₁) := by
    rw [htaken, List.append_assoc]
    exact hagain hne (unread s₁ ++ [lf])
  rw [bind_of_ok hlonger, bind_of_ok h₁, hsame]

namespace Breakable

theorem congr (hx : Breakable x P) (h : ∀ s, P s ↔ R s) : Breakable x R := by
  have heq : P = R := funext fun s => propext (h s)
  exact heq ▸ hx

/-- An action that takes nothing. -/
theorem of_keeps (hx : Local x) (hu : Uncounted x) (hkeeps : Keeps unread x) :
    Breakable x fun _ => False where
  isLocal := hx
  isUncounted := hu
  breaks s a s' begun missing h hunread hmissing := by
    rw [hkeeps.of_ok h] at hunread
    exact absurd hunread (ne_append_of_missing hmissing)
  overlooks s := nofun

theorem pure (a : α) : Breakable (pure a : Action σ α) fun _ => False :=
  of_keeps (.pure a) (.pure a) (.pure a)

theorem throw (failure : Failure) : Breakable (throw failure : Action σ α) fun _ => False :=
  of_keeps (.throw failure) (.throw failure) (.throw failure)

theorem check (outcome : Except Rejection α) :
    Breakable (check outcome : Action σ α) fun _ => False :=
  of_keeps (.check outcome) (.check outcome) (.check outcome)

theorem modify {f : σ → σ} (hf : ∀ bytes s, f (refeed bytes s) = refeed bytes (f s))
    (hcount : ∀ n s, f (recount n s) = recount n (f s)) (hkeeps : ∀ s, unread (f s) = unread s) :
    Breakable (modify f) fun _ => False :=
  of_keeps (.modify hf hkeeps) (.modify hcount) (.modify hkeeps)

/-- The input ends in a line of the first action, or of the second one behind it. -/
theorem bind (hx : Breakable x P) (hf : ∀ a, Breakable (f a) (Q a)) :
    Breakable (x >>= f) fun s => P s ∨ ∃ a s₁, x s = .ok a s₁ ∧ Q a s₁ where
  isLocal := .bind hx.isLocal fun a => (hf a).isLocal
  isUncounted := .bind hx.isUncounted fun a => (hf a).isUncounted
  breaks s := .bind hx.isLocal (fun a => (hf a).isLocal) (fun _ => .inl)
    (fun _ a t₁ h hline => .inr ⟨a, t₁, h, hline⟩) (hx.breaks s) fun a s₁ _ => (hf a).breaks s₁
  overlooks s := by
    rintro (hline | ⟨a, s₁, h₁, hline⟩)
    · exact Overlooks.bind_left (fun a => (hf a).isUncounted) (hx.overlooks s) hline
    · exact Overlooks.bind_right hx.isLocal h₁ ((hf a).overlooks s₁ hline)

/-- There are no lines in what follows. -/
theorem bind_left (hx : Breakable x P) (hf : ∀ a, Breakable (f a) fun _ => False) :
    Breakable (x >>= f) P :=
  (bind hx hf).congr fun s => by simp

/-- There are no lines in what goes before. -/
theorem bind_right (hx : Breakable x fun _ => False) (hf : ∀ a, Breakable (f a) (Q a)) :
    Breakable (x >>= f) fun s => ∃ a s₁, x s = .ok a s₁ ∧ Q a s₁ :=
  (bind hx hf).congr fun s => by simp

/-- Looking at the state is fine as long as nothing is made of the input. -/
theorem get_bind {f : σ → Action σ β} {P : σ → σ → Prop} (hf : ∀ bytes s, f (refeed bytes s) = f s)
    (hcount : ∀ n s, f (recount n s) = f s) (hP : ∀ bytes s, P (refeed bytes s) = P s)
    (h : ∀ s, Breakable (f s) (P s)) : Breakable (get >>= f) fun s => P s s where
  isLocal := .get_bind hf fun s => (h s).isLocal
  isUncounted := .get_bind hcount fun s => (h s).isUncounted
  breaks s b s' begun missing hs hunread hmissing := by
    have hcut := (h s).breaks s b s' begun missing hs hunread hmissing
    change (∃ place s'', f (refeed begun s) (refeed begun s) = .error (.truncated place) s'') ∨
      P (refeed begun s) (refeed begun s)
    rw [hf, hP]
    exact hcut
  overlooks s hline := by
    obtain ⟨hne, hsame⟩ := (h s).overlooks s hline
    refine ⟨hne, ?_⟩
    change f (refeed (unread s ++ [lf]) s) (refeed (unread s ++ [lf]) s) = seen (recount 1) (f s s)
    rw [hf]
    exact hsame

theorem ite {p : Prop} [Decidable p] {y : Action σ α} (hx : Breakable x P) (hy : Breakable y P) :
    Breakable (if p then x else y) P := by
  split
  · exact hx
  · exact hy

/-- An action without lines that ends like another one, but for what it leaves when it fails. -/
theorem of_outcome {y : Action σ α} (hx : Uncounted x) (hy : Breakable y fun _ => False)
    (hok : ∀ s a s', x s = .ok a s' ↔ y s = .ok a s')
    (herror : ∀ s failure s', y s = .error failure s' → ∃ s'', x s = .error failure s'') :
    Breakable x fun _ => False where
  isLocal := .of_eq_ok hok hy.isLocal
  isUncounted := hx
  breaks s a s' begun missing h hunread hmissing := by
    rcases hy.breaks s a s' begun missing ((hok s a s').1 h) hunread hmissing with
      ⟨place, s₁, hshort⟩ | hline
    · obtain ⟨s'', hfails⟩ := herror _ _ s₁ hshort
      exact .inl ⟨place, s'', hfails⟩
    · exact hline.elim
  overlooks s := nofun

end Breakable

end

/-! ## The input -/

namespace Inbound

variable {i i' : Inbound} {line begun missing : Bytes}

/-- The input ends in the line that is taken next. -/
structure InLine (i : Inbound) : Prop where
  queued : i.queued = []
  begun : i.unread ≠ []
  unended : lf ∉ i.unread
  short : i.unread.length ≤ maxLine

/-- What is taken off the input with a line. -/
theorem taken_of_takeLine (hq : i.queued = []) (hne : i.unread ≠ [])
    (h : takeLine i = .ok (some line) i') :
    ∃ text, lf ∉ text ∧ text.length ≤ maxLine ∧
      (i.unread = text ++ [lf] ++ i'.unread ∨ i.unread = text ++ i'.unread) := by
  have hshort := short_of_takeLine hq h
  by_cases hlf : lf ∈ i.unread
  · obtain ⟨text, rest, hsplit, htext⟩ := List.eq_append_cons_of_mem hlf
    rw [hsplit, takeWhile_of_line htext] at hshort
    rw [takeLine_of_line hq htext hshort hsplit] at h
    cases h
    exact ⟨text, htext, hshort, .inl (by rw [List.append_assoc]; exact hsplit)⟩
  · rw [takeWhile_of_last hlf] at hshort
    rw [takeLine_of_last hq hne hlf hshort] at h
    cases h
    exact ⟨i.unread, hlf, hshort, .inr (List.append_nil _).symm⟩

/-- Of a line and its line feed, what is cut off is a line. -/
theorem inLine_of_takeLine (hq : i.queued = []) (h : takeLine i = .ok (some line) i')
    (hunread : i.unread = begun ++ missing ++ i'.unread) (hbegun : begun ≠ [])
    (hmissing : missing ≠ []) : InLine (refeed begun i) := by
  have hne : i.unread ≠ [] := by
    rw [hunread, List.append_assoc]
    exact List.append_ne_nil_of_left_ne_nil hbegun _
  obtain ⟨text, hlf, hshort, htaken⟩ := taken_of_takeLine hq hne h
  have hpart : begun <+: text := by
    rw [hunread] at htaken
    rcases htaken with htaken | htaken
    · have hsplit : begun ++ missing = text ++ [lf] := List.append_cancel_right htaken
      refine ⟨missing.dropLast, ?_⟩
      rw [← List.dropLast_append_of_ne_nil hmissing, hsplit, List.dropLast_concat]
    · exact ⟨missing, List.append_cancel_right htaken⟩
  exact {
    queued := hq
    begun := hbegun
    unended := fun hmem => hlf (hpart.subset hmem)
    short := Nat.le_trans hpart.length_le hshort }

theorem lineOr_breakable (place : Truncation) : Breakable (lineOr place) InLine where
  isLocal := lineOr_local place
  isUncounted := lineOr_uncounted place
  breaks i line i' begun missing h hunread hmissing := by
    obtain ⟨line?, i₁, h₁, h₂⟩ := bind_eq_ok.1 h
    cases line? with
    | none => cases h₂
    | some line =>
      cases h₂
      by_cases hq : i.queued = []
      · by_cases hbegun : begun = []
        · have hnone : takeLine (refeed [] i) = .ok none (refeed [] i) := by
            obtain ⟨unread, queued, consumed⟩ := i
            cases hq
            rfl
          rw [hbegun]
          exact .inl ⟨place, refeed [] i, bind_of_ok hnone⟩
        · exact .inr (inLine_of_takeLine hq h₁ hunread hbegun hmissing)
      · -- A line that was queued is not taken off the input.
        obtain ⟨unread, queued, consumed⟩ := i
        cases queued with
        | nil => exact absurd rfl hq
        | cons next others =>
          cases h₁
          exact absurd hunread (ne_append_of_missing hmissing)
  overlooks i hline := by
    refine ⟨hline.begun, ?_⟩
    have hended : takeLine (refeed (i.unread ++ [lf]) i) =
        .ok (some (dropFinalCr i.unread)) { i with
          unread := []
          consumed := i.consumed + (i.unread.length + 1) } :=
      takeLine_of_line (i := refeed (i.unread ++ [lf]) i) hline.queued hline.unended hline.short rfl
    have hlast := takeLine_of_last hline.queued hline.begun hline.unended hline.short
    have hcount : i.consumed + (i.unread.length + 1) = 1 + (i.consumed + i.unread.length) := by
      omega
    rw [hcount] at hended
    unfold lineOr
    rw [bind_of_ok hlast]
    exact bind_of_ok hended

/-- A part of a payload is missed. -/
theorem takeBytes_breakable (count : Nat) : Breakable (takeBytes count) fun _ => False where
  isLocal := takeBytes_local count
  isUncounted := takeBytes_uncounted count
  breaks i data i' begun missing h hunread hmissing := by
    obtain ⟨hq, _, hlength, hdata, rfl⟩ := takeBytes_eq_ok.1 h
    have hsplit : data = begun ++ missing := List.append_cancel_right (hdata.symm.trans hunread)
    have hshort : begun.length < count := by
      have hpos := List.length_pos_iff.2 hmissing
      rw [hsplit, List.length_append] at hlength
      omega
    exact .inl ⟨_, _, takeBytes_of_short (i := refeed begun i) hq hshort⟩
  overlooks i := nofun

/-- Before the blank line behind it has come, a block has no end. -/
theorem Delimited.unended {block : Bytes} (h : Delimited block)
    (hsplit : block ++ blankLine = begun ++ missing) (hmissing : missing ≠ []) :
    ¬ blankLine <:+: begun := by
  rintro ⟨before, after, rfl⟩
  have hnil : after ++ missing = [] := h.first before _ (by rw [hsplit, List.append_assoc])
  exact hmissing (List.append_eq_nil_iff.1 hnil).2

/-- A part of a sealed block is missed. -/
theorem takeSealedBlock_breakable (suite : Suite) (sealing : Sealing) :
    Breakable (takeSealedBlock suite sealing) fun _ => False where
  isLocal := takeSealedBlock_local suite sealing
  isUncounted := takeSealedBlock_uncounted suite sealing
  breaks i _ i' begun missing h hunread hmissing := by
    cases he : sealing.enabled with
    | false =>
      cases (takeSealedBlock_of_clear he).symm.trans h
      exact absurd hunread (ne_append_of_missing hmissing)
    | true =>
      obtain ⟨block, _, _, hblock, hwhole, _, htaken, rfl⟩ := (takeSealedBlock_eq_ok he).1 h
      have hsplit : block ++ blankLine = begun ++ missing :=
        List.append_cancel_right (htaken.symm.trans hunread)
      have hshort : begun.length ≤ maxSealedBlock := by
        have hpos := List.length_pos_iff.2 hmissing
        rw [← List.length_append, hsplit, List.length_append] at hwhole
        omega
      exact .inl ⟨_, _, takeSealedBlock_of_unended (i := refeed begun i) he
        (hblock.unended hsplit hmissing) hshort⟩
  overlooks i := nofun

end Inbound

/-! ## Payloads -/

namespace Payload

open Inbound

theorem onInbound_breakable {α : Type} {action : Action Inbound α} {P : Inbound → Prop}
    (h : Breakable action P) : Breakable (Receiving.onInbound action) fun r => P r.inbound where
  isLocal := onInbound_local h.isLocal
  isUncounted := onInbound_uncounted h.isUncounted
  breaks r a r' begun missing hr hunread hmissing := by
    unfold Receiving.onInbound at hr
    cases hx : action r.inbound with
    | error failure inbound =>
      rw [hx] at hr
      cases hr
    | ok b inbound =>
      rw [hx] at hr
      cases hr
      refine (h.breaks r.inbound a inbound begun missing hx hunread hmissing).imp_left ?_
      rintro ⟨place, inbound', hshort⟩
      refine ⟨place, { r with inbound := inbound' }, ?_⟩
      have hshort : action (refeed begun r).inbound = .error (.truncated place) inbound' := hshort
      unfold Receiving.onInbound
      rw [hshort]
      rfl
  overlooks r hline := by
    obtain ⟨hne, hsame⟩ := h.overlooks r.inbound hline
    refine ⟨hne, ?_⟩
    have hsame : action (refeed (unread r ++ [lf]) r).inbound =
        seen (recount 1) (action r.inbound) := hsame
    unfold Receiving.onInbound
    rw [hsame]
    cases action r.inbound <;> rfl

theorem onStore_breakable {α : Type} (action : Action Store α) :
    Breakable (Receiving.onStore action) fun _ => False := by
  refine .of_keeps (onStore_local action) (onStore_uncounted action) fun r => ?_
  unfold final Receiving.onStore
  cases action r.store <;> rfl

theorem write_breakable (suite : Suite) (sealing : Sealing) (slot : Slot) (data : Bytes) :
    Breakable (write suite sealing slot data) fun _ => False := by
  refine .of_keeps (write_local suite sealing slot data) (write_uncounted suite sealing slot data)
    fun r => ?_
  unfold final write
  cases sealing.decrypt suite data <;> rfl

theorem fill_breakable (suite : Suite) (sealing : Sealing) (length : Nat) (slot : Slot) :
    Breakable (fill suite sealing length slot) fun _ => False := by
  rw [fill_eq]
  exact .bind_left (onInbound_breakable (takeBytes_breakable length)) fun data =>
    write_breakable suite sealing slot data

theorem hold_breakable (suite : Suite) (sealing : Sealing) (length : Nat) (slot : Slot) :
    Breakable (hold suite sealing length slot) fun _ => False :=
  .ite (.bind_left (onInbound_breakable (takeBytes_breakable length)) fun _ => .pure ())
    (.bind_left (fill_breakable suite sealing length slot) fun slot =>
      onStore_breakable (Store.commit slot))

theorem keep_uncounted (suite : Suite) (sealing : Sealing) (length : Nat) (slot : Slot) :
    Uncounted (keep suite sealing length slot) := by
  intro n r
  have htake := onInbound_uncounted (takeBytes_uncounted length) n r
  have hfill := (fill_breakable suite sealing length slot).isUncounted n r
  unfold keep
  rw [htake, hfill]
  split
  · cases Receiving.onInbound (takeBytes length) r <;> rfl
  · cases fill suite sealing length slot r with
    | error failure r₁ => rfl
    | ok slot r₁ => exact onStore_uncounted (Store.commit slot) n r₁

/-- When it fails, the slot is given back, and otherwise it is the same. -/
theorem keep_breakable (suite : Suite) (sealing : Sealing) (length : Nat) (slot : Slot) :
    Breakable (keep suite sealing length slot) fun _ => False := by
  refine .of_outcome (keep_uncounted suite sealing length slot)
    (hold_breakable suite sealing length slot) (fun _ _ _ => keep_eq_ok) fun r failure r' => ?_
  unfold keep hold
  split
  · simp only [bind, EStateM.bind]
    cases Receiving.onInbound (takeBytes length) r with
    | ok data r₁ => exact nofun
    | error failure' r₁ => exact fun h => ⟨_, h⟩
  · simp only [bind, EStateM.bind]
    cases fill suite sealing length slot r with
    | ok slot r₁ => exact fun h => ⟨_, h⟩
    | error failure' r₁ =>
      intro h
      cases h
      exact ⟨_, rfl⟩

/-- Takes the payload that the headers of a resource announce, up to the blank line behind it. -/
def payload (suite : Suite) (sealing : Sealing) (headers : Headers) :
    Action Receiving (Bytes × Nat × Slot) := do
  let (identifier, length) ← check (announced headers)
  let slot ← Receiving.onStore (Store.acquire suite identifier)
  keep suite sealing length slot
  pure (identifier, length, slot)

theorem receive_eq (suite : Suite) (sealing : Sealing) (headers : Headers) :
    receive suite sealing headers = payload suite sealing headers >>=
      fun (identifier, length, slot) =>
        Receiving.onInbound (takeBlankLine identifier) >>= fun _ =>
          pure { identifier, length, cached := slot.cached, location := slot.location, headers } := by
  unfold receive payload
  simp only [bind_assoc, pure_bind]

theorem payload_breakable (suite : Suite) (sealing : Sealing) (headers : Headers) :
    Breakable (payload suite sealing headers) fun _ => False :=
  .bind_left (.check _) fun (_, length) => .bind_left (onStore_breakable _) fun slot =>
    .bind_left (keep_breakable suite sealing length slot) fun _ => .pure _

theorem takeBlankLine_breakable (identifier : Bytes) :
    Breakable (takeBlankLine identifier) InLine := by
  rw [takeBlankLine_eq]
  exact .bind_left (lineOr_breakable _) fun line => .ite (.throw _) (.pure ())

/-- Behind the payload, the input ends in a line. -/
def InLine (suite : Suite) (sealing : Sealing) (headers : Headers) (r : Receiving) : Prop :=
  ∃ received left, payload suite sealing headers r = .ok received left ∧ left.inbound.InLine

theorem receive_breakable (suite : Suite) (sealing : Sealing) (headers : Headers) :
    Breakable (receive suite sealing headers) (InLine suite sealing headers) := by
  rw [receive_eq]
  exact .bind_right (payload_breakable suite sealing headers) fun (identifier, _, _) =>
    .bind_left (onInbound_breakable (takeBlankLine_breakable identifier)) fun _ => .pure _

end Payload

/-! ## The reading -/

namespace Reading

variable {gate : Gate}

theorem onInbound_breakable {α : Type} {action : Action Inbound α} {P : Inbound → Prop}
    (h : Breakable action P) : Breakable (onInbound action) fun r => P r.inbound where
  isLocal := onInbound_local h.isLocal
  isUncounted := onInbound_uncounted h.isUncounted
  breaks r a r' begun missing hr hunread hmissing := by
    obtain ⟨inbound, hx, rfl⟩ := onInbound_eq_ok.1 hr
    refine (h.breaks r.inbound a inbound begun missing hx hunread hmissing).imp_left ?_
    rintro ⟨place, inbound', hshort⟩
    have hshort : action (refeed begun r).inbound = .error (.truncated place) inbound' := hshort
    refine ⟨place, { r with inbound := inbound' }, ?_⟩
    unfold onInbound
    rw [hshort]
    rfl
  overlooks r hline := by
    obtain ⟨hne, hsame⟩ := h.overlooks r.inbound hline
    refine ⟨hne, ?_⟩
    have hsame : action (refeed (unread r ++ [lf]) r).inbound =
        seen (recount 1) (action r.inbound) := hsame
    unfold onInbound
    rw [hsame]
    cases action r.inbound <;> rfl

/-- An action on headers takes nothing. -/
theorem Secluded.breakable {α : Type} {x : Action Reading α} (hx : Secluded x) :
    Breakable x fun _ => False :=
  .of_keeps hx.local hx.uncounted fun r => congrArg (fun c => c.inbound.unread) (hx.keeps r)

theorem nextLine_breakable : Breakable nextLine fun r : Reading => r.inbound.InLine := by
  rw [nextLine_eq]
  exact .get_bind (P := fun _ (r : Reading) => r.inbound.InLine) (fun _ _ => rfl) (fun _ _ => rfl)
    (fun _ _ => rfl) fun r => onInbound_breakable (Inbound.lineOr_breakable _)

theorem receive_breakable (suite : Suite) : Breakable (receive suite) fun r =>
    Payload.InLine suite r.sealing r.block r.receiving where
  isLocal := receive_local suite
  isUncounted n r := by
    have hsame : Payload.receive suite (recount n r).sealing (recount n r).block
        (recount n r).receiving =
          seen (recount n) (Payload.receive suite r.sealing r.block r.receiving) :=
      (Payload.receive_breakable suite r.sealing r.block).isUncounted n r.receiving
    unfold receive
    rw [hsame]
    cases Payload.receive suite r.sealing r.block r.receiving <;> rfl
  breaks r resource r' begun missing hr hunread hmissing := by
    unfold receive at hr
    cases hx : Payload.receive suite r.sealing r.block r.receiving with
    | error failure left =>
      rw [hx] at hr
      cases hr
    | ok received left =>
      rw [hx] at hr
      cases hr
      refine ((Payload.receive_breakable suite r.sealing r.block).breaks r.receiving resource left
        begun missing hx hunread hmissing).imp_left ?_
      rintro ⟨place, left', hshort⟩
      have hshort : Payload.receive suite (refeed begun r).sealing (refeed begun r).block
          (refeed begun r).receiving = .error (.truncated place) left' := hshort
      refine ⟨place, (refeed begun r).resume left', ?_⟩
      unfold receive
      rw [hshort]
  overlooks r hline := by
    obtain ⟨hne, hsame⟩ :=
      (Payload.receive_breakable suite r.sealing r.block).overlooks r.receiving hline
    refine ⟨hne, ?_⟩
    have hsame : Payload.receive suite (refeed (unread r ++ [lf]) r).sealing
        (refeed (unread r ++ [lf]) r).block (refeed (unread r ++ [lf]) r).receiving =
          seen (recount 1) (Payload.receive suite r.sealing r.block r.receiving) := hsame
    unfold receive
    rw [hsame]
    cases Payload.receive suite r.sealing r.block r.receiving <;> rfl

theorem grant_breakable (line : RequestLine) (access : Access) :
    Breakable (grant gate line access) fun _ => False :=
  .bind_left (.modify (fun _ _ => rfl) (fun _ _ => rfl) fun _ => rfl) fun _ => .ite
    (.bind_left (.check _) fun _ => .modify (fun _ _ => rfl) (fun _ _ => rfl) fun _ => rfl)
    (.pure ())

theorem decide_breakable (line : RequestLine) : Breakable (decide gate line) fun _ => False := by
  unfold decide
  cases Access.decide gate.suite gate.keyring gate.policy line with
  | ok access => exact .pure access
  | error failure => exact .throw failure

theorem openHeaders_breakable : Breakable (openHeaders gate) fun _ => False :=
  .get_bind (P := fun _ _ => False) (fun _ _ => rfl) (fun _ _ => rfl) (fun _ _ => rfl) fun r =>
    onInbound_breakable (Inbound.takeSealedBlock_breakable gate.suite r.sealing)

theorem readRequestLine_breakable :
    Breakable (readRequestLine gate) fun r => r.inbound.InLine := by
  rw [readRequestLine_eq]
  exact .bind_left (onInbound_breakable (Inbound.lineOr_breakable _)) fun _ =>
    .bind_left (.check _) fun line => .bind_left (decide_breakable line) fun access =>
      .bind_left (grant_breakable line access) fun _ => .bind_left openHeaders_breakable fun _ =>
        .pure _

/-- A step that takes a line, and then leaves the input alone. -/
theorem line_breakable {f : Bytes → Action Reading Phase} (hf : ∀ line, Secluded (f line)) :
    Breakable (nextLine >>= f) fun r => r.inbound.InLine :=
  .bind_left nextLine_breakable fun line => (hf line).breakable

/-- The input ends in the blank line behind the payload that is taken next. -/
def InBlankLine (suite : Suite) (r : Reading) : Prop :=
  r.checkNew = .ok () ∧ Payload.InLine suite r.sealing r.block r.receiving

theorem readResourceData_breakable (suite : Suite) :
    Breakable (readResourceData suite) (InBlankLine suite) := by
  have hrest (r : Reading) : Breakable (check r.checkNew >>= fun _ => receive suite >>= attach)
      fun t => r.checkNew = .ok () ∧ Payload.InLine suite t.sealing t.block t.receiving := by
    refine Breakable.congr (.bind_right (.check r.checkNew) fun _ =>
      .bind_left (receive_breakable suite) fun resource => (attach_secluded resource).breakable)
      fun t => ?_
    constructor
    · rintro ⟨_, t₁, hcheck, hline⟩
      obtain ⟨hnew, rfl⟩ := check_eq_ok.1 hcheck
      exact ⟨hnew, hline⟩
    · rintro ⟨hnew, hline⟩
      exact ⟨(), t, check_eq_ok.2 ⟨hnew, rfl⟩, hline⟩
  exact .get_bind (P := fun (r t : Reading) => r.checkNew = .ok () ∧
    Payload.InLine suite t.sealing t.block t.receiving) (fun _ _ => rfl) (fun _ _ => rfl)
    (fun _ _ => rfl) hrest

/-- The input ends in a line that is taken in a phase. -/
def InLineDuring (gate : Gate) : Phase → Reading → Prop
  | .requestLine, r | .requestHeaders, r | .typeHeaders, r | .resourceHeaders, r =>
    r.inbound.InLine
  | .resourceData, r => InBlankLine gate.suite r
  | .complete, _ | .answered, _ => False

/-- The input ends in a line that the next step takes. -/
def InLine (gate : Gate) (r : Reading) : Prop := InLineDuring gate r.phase r

theorem read_breakable (phase : Phase) : Breakable (read gate phase) (InLineDuring gate phase) := by
  cases phase with
  | requestLine => exact readRequestLine_breakable
  | requestHeaders => exact line_breakable requestHeader_secluded
  | typeHeaders => exact line_breakable typeHeader_secluded
  | resourceHeaders => exact line_breakable resourceHeader_secluded
  | resourceData => exact readResourceData_breakable gate.suite
  | complete | answered => exact .throw _

theorem step_breakable : Breakable (step gate) (InLine gate) :=
  .get_bind (P := fun (r t : Reading) => InLineDuring gate r.phase t) (fun _ _ => rfl)
    (fun _ _ => rfl) (fun _ _ => rfl) fun r => read_breakable r.phase

theorem advance_breakable : Breakable (advance gate) (InLine gate) :=
  .bind_left step_breakable fun _ => .modify (fun _ _ => rfl) (fun _ _ => rfl) fun _ => rfl

/-! ## The whole reading -/

/-- The reading comes to a line that the input ends in. -/
inductive EndsInLine (gate : Gate) : Reading → Prop
  | now {r : Reading} : InLine gate r → EndsInLine gate r
  | later {r r' : Reading} : advance gate r = .ok () r' → r'.phase.isUnderWay →
    EndsInLine gate r' → EndsInLine gate r

variable {r : Reading}

/-- What no step looks at, the loop does not look at. -/
theorem proceed_uncounted : Uncounted (proceed gate) := by
  intro n r
  induction r using proceed.induct gate with
  | case1 r hp _ r₁ h₁ ih =>
    have hadvance : advance gate (recount n r) = .ok () (recount n r₁) := by
      rw [advance_breakable.isUncounted n r, h₁]
      rfl
    rw [proceed_of_advance (r := recount n r) hp hadvance, ih, proceed_of_advance hp h₁]
  | case2 r hp failure r₁ h₁ =>
    have hadvance : advance gate (recount n r) = .error failure (recount n r₁) := by
      rw [advance_breakable.isUncounted n r, h₁]
      rfl
    rw [proceed_of_failure (r := recount n r) hp hadvance, proceed_of_failure hp h₁]
    rfl
  | case3 r hp =>
    rw [proceed_of_over (r := recount n r) hp, proceed_of_over hp]
    rfl

/-- The loop is a step and the rest of the loop. -/
theorem proceed_eq : proceed gate r =
    if r.phase.isUnderWay then (advance gate >>= fun _ => proceed gate) r else .ok () r := by
  split
  · next hp =>
    cases h : advance gate r with
    | ok _ r' => rw [proceed_of_advance hp h, bind_of_ok h]
    | error failure r' => rw [proceed_of_failure hp h, bind_of_error h]
  · next hp => exact proceed_of_over hp

/-- Cut off, the loop misses what is missing, or comes to a line that the input ends in. -/
theorem proceed_breaks :
    Breaks (proceed gate) (fun r => r.phase.isUnderWay ∧ EndsInLine gate r) r := by
  induction r using proceed.induct gate with
  | case1 r hp _ r₁ h₁ ih =>
    have hsteps : Breaks (advance gate >>= fun _ => proceed gate) (EndsInLine gate) r := by
      refine .bind advance_local (fun _ => proceed_local) (fun _ => .now) ?_
        (advance_breakable.breaks r) (Q := fun _ r => r.phase.isUnderWay ∧ EndsInLine gate r) ?_
      · exact fun t _ t₁ h hends => .later h hends.1 hends.2
      · intro _ r₂ h₂
        cases h₁.symm.trans h₂
        exact ih
    intro _ r' begun missing h hunread hmissing
    have hp' : (refeed begun r).phase.isUnderWay := hp
    rw [proceed_eq, if_pos hp] at h
    rw [proceed_eq, if_pos hp']
    exact (hsteps _ r' begun missing h hunread hmissing).imp_right fun hends => ⟨hp', hends⟩
  | case2 r hp failure r₁ h₁ =>
    intro _ r' begun missing h
    rw [proceed_of_failure hp h₁] at h
    cases h
  | case3 r hp =>
    intro _ r' begun missing h hunread hmissing
    rw [proceed_of_over hp] at h
    cases h
    exact absurd hunread (ne_append_of_missing hmissing)

/-- Reading from a step on. -/
theorem advance_proceed_breaks :
    Breaks (advance gate >>= fun _ => proceed gate) (EndsInLine gate) r := by
  refine .bind advance_local (fun _ => proceed_local) (fun _ => .now) ?_
    (advance_breakable.breaks r) fun _ _ _ => proceed_breaks
  exact fun t _ t₁ h hends => .later h hends.1 hends.2

/-- Where the reading comes to a line that the input ends in, it goes on as if the line feed had
come. -/
theorem advance_proceed_overlooks :
    Overlooks (advance gate >>= fun _ => proceed gate) (EndsInLine gate) r := by
  intro hends
  induction hends with
  | @now r hline =>
    exact Overlooks.bind_left (fun _ => proceed_uncounted) (advance_breakable.overlooks r) hline
  | @later r r₁ h₁ hp _ ih =>
    obtain ⟨hne, hsame⟩ := ih
    refine Overlooks.bind_right advance_local h₁ ⟨hne, ?_⟩
    have hp' : (refeed (unread r₁ ++ [lf]) r₁).phase.isUnderWay := hp
    rw [proceed_eq, if_pos hp', hsame, proceed_eq, if_pos hp]

theorem run_breakable :
    Breakable (advance gate >>= fun _ => proceed gate) (EndsInLine gate) where
  isLocal := .bind advance_local fun _ => proceed_local
  isUncounted := .bind advance_breakable.isUncounted fun _ => proceed_uncounted
  breaks _ := advance_proceed_breaks
  overlooks _ := advance_proceed_overlooks

/-- Reads a request to its end, from a step on. -/
def readOn (gate : Gate) : Action Reading Request :=
  (advance gate >>= fun _ => proceed gate) >>= fun _ => get >>= fun r => pure r.request

theorem readOn_breakable : Breakable (readOn gate) (EndsInLine gate) := by
  refine .bind_left run_breakable fun _ => .of_keeps ?_ ?_ ?_
  · exact .get_bind (fun _ _ => rfl) fun r => .pure r.request
  · exact .get_bind (fun _ _ => rfl) fun r => .pure r.request
  · exact .bind .get fun r => .pure r.request

variable {begun missing : Bytes} {s : Store} {request : Request}

theorem finish_start (input : Bytes) : finish gate (start input s) = readOn gate (start input s) := by
  rw [finish_start_eq]
  unfold readOn
  rw [bind_assoc]

/-- Of a request that takes all of its input, a part is missed, or ends in a line. -/
theorem parse_of_cut (h : parse gate (start (begun ++ missing) s) = .ok (some request) r)
    (hall : r.inbound.unread = []) (hmissing : missing ≠ []) :
    (∃ r', parse gate (start begun s) = .ok none r') ∨ EndsInLine gate (start begun s) := by
  rw [parse_eq_some, finish_start] at h
  have hunread : unread (start (begun ++ missing) s) = begun ++ missing ++ unread r := by
    change begun ++ missing = begun ++ missing ++ r.inbound.unread
    rw [hall, List.append_nil]
  refine (readOn_breakable.breaks _ request r begun missing h hunread hmissing).imp_left ?_
  rintro ⟨place, r', hshort⟩
  have hshort : finish gate (start begun s) = .error (.truncated place) r' := by
    rw [finish_start]
    exact hshort
  refine ⟨r', ?_⟩
  unfold parse
  rw [hshort]

/-- An input that ends in a line is read like one in which the line feed has come. -/
theorem parse_of_endsInLine (h : EndsInLine gate (start begun s)) :
    parse gate (start (begun ++ [lf]) s) = seen (recount 1) (parse gate (start begun s)) := by
  have hsame : finish gate (start (begun ++ [lf]) s) =
      seen (recount 1) (finish gate (start begun s)) := by
    rw [finish_start, finish_start]
    exact (readOn_breakable.overlooks _ h).2
  unfold parse
  rw [hsame]
  cases finish gate (start begun s) with
  | ok request r => rfl
  | error failure r => cases failure <;> rfl

end Reading

/-! ## Exchanges -/

namespace Service

variable {service : Service} {world : World} {begun missing : Bytes} {response : Response}

/-- An exchange does not depend on how much was taken. -/
theorem handle_of_seen {input input' : Bytes} {n : Nat}
    (h : Reading.parse service.gate (.start input' world.store) =
      seen (recount n) (Reading.parse service.gate (.start input world.store))) :
    service.handle world input' = service.handle world input := by
  unfold handle
  rw [h]
  cases Reading.parse service.gate (.start input world.store) with
  | error failure r => rfl
  | ok request? r => cases request? <;> rfl

/-- Of a request that is accepted and takes all of its input, a part that does not end in a line is
neither answered nor acted on. A part that ends in a line is handled as if the line feed had
come. -/
theorem handle_truncated
    (hresponse : (service.handle world (begun ++ missing)).response = some response)
    (hok : response.status = .ok) (hall : (service.handle world (begun ++ missing)).rest = [])
    (hmissing : missing ≠ []) :
    (¬ Reading.EndsInLine service.gate (.start begun world.store) →
      (service.handle world begun).handled = false ∧ (service.handle world begun).output = [] ∧
      (service.handle world begun).world.registry = world.registry ∧
      (service.handle world begun).shown = []) ∧
    (Reading.EndsInLine service.gate (.start begun world.store) →
      service.handle world begun = service.handle world (begun ++ [lf])) := by
  constructor
  · intro hends
    obtain ⟨request, r, hp, hrest⟩ := parse_of_accepted hresponse hok
    rw [hall] at hrest
    obtain ⟨r', hshort⟩ := (Reading.parse_of_cut hp hrest.symm hmissing).resolve_right hends
    rw [handle_of_truncated hshort]
    exact ⟨rfl, rfl, rfl, rfl⟩
  · intro hends
    exact (handle_of_seen (Reading.parse_of_endsInLine hends)).symm

/-- The request line of a registration. -/
def opening : Bytes := ascii "GNTP/1.0 REGISTER NONE" ++ crlf

/-- The rest of the registration. -/
def remainder : Bytes :=
  [ascii "Application-Name: A", ascii "Notifications-Count: 0", []].flatMap (· ++ crlf)

theorem handle_truncated_registration :
    let service : Service := { gate := { suite := .full } }
    let world : World := { store := .discard }
    (service.handle world (opening ++ remainder)).response.map Response.status = some .ok ∧
    (service.handle world (opening ++ remainder)).rest = [] ∧
    (service.handle world opening).handled = false ∧
    service.handle world (opening.take 12) = service.handle world (opening.take 12 ++ [lf]) := by
  intro service world
  have hstatus : (service.handle world (opening ++ remainder)).response.map Response.status =
      some .ok := by decide +kernel
  have hall : (service.handle world (opening ++ remainder)).rest = [] := by decide +kernel
  obtain ⟨response, hresponse, hok⟩ := Option.map_eq_some_iff.1 hstatus
  have hended : ¬ Reading.EndsInLine service.gate (.start opening world.store) := by
    intro hends
    cases hends with
    | now hline =>
      have hin : lf ∈ opening := by decide
      exact hline.unended hin
    | later h _ hends =>
      -- Nothing is left behind the request line.
      have hleft : ((Reading.advance service.gate).final
          (.start opening world.store)).inbound.unread = [] := by decide +kernel
      rw [final_of_ok h] at hleft
      exact (Reading.readOn_breakable.overlooks _ hends).1 hleft
  have hopen : Reading.EndsInLine service.gate (.start (opening.take 12) world.store) :=
    .now { queued := rfl, begun := by decide, unended := by decide, short := by decide }
  refine ⟨hstatus, hall, ((handle_truncated hresponse hok hall (by decide)).1 hended).1, ?_⟩
  have hsplit : opening ++ remainder = opening.take 12 ++ (opening.drop 12 ++ remainder) := by
    rw [← List.append_assoc, List.take_append_drop]
  rw [hsplit] at hresponse hall
  exact (handle_truncated hresponse hok hall (by decide)).2 hopen

/-- The last line feed of a request need not come: a registration is applied without it. -/
theorem not_unanswered_of_truncated : ¬ ∀ (service : Service) (world : World)
    (begun missing : Bytes) (response : Response),
    (service.handle world (begun ++ missing)).response = some response → response.status = .ok →
    (service.handle world (begun ++ missing)).rest = [] → missing ≠ [] →
    (service.handle world begun).handled = false ∧ (service.handle world begun).output = [] ∧
    (service.handle world begun).world.registry = world.registry ∧
    (service.handle world begun).shown = [] := by
  intro hall
  have hstatus : ((Service.mk { suite := .full } {}).handle { store := .discard }
      ((opening ++ remainder.dropLast) ++ [lf])).response.map Response.status = some .ok := by
    decide +kernel
  obtain ⟨response, hresponse, hok⟩ := Option.map_eq_some_iff.1 hstatus
  have hregistry := (hall _ _ _ _ response hresponse hok (by decide +kernel) (by decide)).2.2.1
  revert hregistry
  decide +kernel

end Service

end Gntp
