import Gntp.Proofs.Clock
import Gntp.Proofs.Framing

/-!
# Where reading stops

An action is `Local` if whatever it takes it takes off the front of the input, and nothing behind
that has a bearing on it as long as there is something. Every step of a reading is, so a request is
read the same whatever follows it, and exactly that is left (`parse_stops`).

An action that is ended by the end of the input does look behind what it takes: a line may lack its
line feed there. Hence the condition that something is left.
-/

namespace Gntp

open Gntp.Action

/-- A state with an input that is read from the front. -/
class Fed (σ : Type) where
  unread : σ → Bytes
  /-- The state with another input. -/
  refeed : Bytes → σ → σ

namespace Fed

instance : Fed Inbound where
  unread := Inbound.unread
  refeed bytes i := { i with unread := bytes }

instance : Fed Receiving where
  unread r := r.inbound.unread
  refeed bytes r := { r with inbound := refeed bytes r.inbound }

instance : Fed Reading where
  unread r := r.inbound.unread
  refeed bytes r := { r with inbound := refeed bytes r.inbound }

end Fed

open Fed

/-- An action that takes what it takes off the front of the input, whatever follows. -/
def Local {σ α : Type} [Fed σ] (x : Action σ α) : Prop :=
  ∀ s a s', x s = .ok a s' → ∃ taken, unread s = taken ++ unread s' ∧
    (unread s' ≠ [] → ∀ rest, x (refeed (taken ++ rest) s) = .ok a (refeed rest s'))

namespace Local

variable {σ α β : Type} [Fed σ]

/-- An action that does not look at the input. -/
theorem of_mirrors {x : Action σ α} (hx : ∀ bytes, Mirrors (refeed bytes) x x)
    (hkeeps : Keeps unread x) : Local x := by
  intro s a s' h
  have hsame : unread s' = unread s := hkeeps.of_ok h
  refine ⟨[], hsame.symm, fun _ rest => ?_⟩
  rw [List.nil_append, hx rest s, h]
  rfl

theorem pure (a : α) : Local (pure a : Action σ α) := of_mirrors (fun _ => .pure a) (.pure a)

theorem throw (failure : Failure) : Local (throw failure : Action σ α) := nofun

theorem check (outcome : Except Rejection α) : Local (check outcome : Action σ α) :=
  of_mirrors (fun _ => .check outcome) (.check outcome)

theorem modify {f : σ → σ} (hf : ∀ bytes s, f (refeed bytes s) = refeed bytes (f s))
    (hkeeps : ∀ s, unread (f s) = unread s) : Local (modify f) :=
  of_mirrors (fun bytes => .modify (hf bytes)) (.modify hkeeps)

theorem bind {x : Action σ α} {f : α → Action σ β} (hx : Local x) (hf : ∀ a, Local (f a)) :
    Local (x >>= f) := by
  intro s b s' h
  obtain ⟨a, s₁, h₁, h₂⟩ := bind_eq_ok.1 h
  obtain ⟨first, hfirst, hsame₁⟩ := hx s a s₁ h₁
  obtain ⟨second, hsecond, hsame₂⟩ := hf a s₁ b s' h₂
  refine ⟨first ++ second, by rw [hfirst, hsecond, List.append_assoc], fun hmore rest => ?_⟩
  have hmore₁ : unread s₁ ≠ [] := by
    rw [hsecond]
    exact List.append_ne_nil_of_right_ne_nil second hmore
  rw [List.append_assoc, bind_of_ok (hsame₁ hmore₁ (second ++ rest))]
  exact hsame₂ hmore rest

/-- Looking at the state is fine as long as nothing is made of the input. -/
theorem get_bind {f : σ → Action σ β} (hf : ∀ bytes s, f (refeed bytes s) = f s)
    (h : ∀ s, Local (f s)) : Local (get >>= f) := by
  intro s b s' hs
  obtain ⟨taken, hunread, hsame⟩ := h s s b s' hs
  refine ⟨taken, hunread, fun hmore rest => ?_⟩
  change f (refeed (taken ++ rest) s) (refeed (taken ++ rest) s) = _
  rw [hf]
  exact hsame hmore rest

theorem ite {p : Prop} [Decidable p] {x y : Action σ α} (hx : Local x) (hy : Local y) :
    Local (if p then x else y) := by
  split
  · exact hx
  · exact hy

/-- Only what an action does when it succeeds matters. -/
theorem of_eq_ok {x y : Action σ α} (h : ∀ s a s', x s = .ok a s' ↔ y s = .ok a s')
    (hy : Local y) : Local x := by
  intro s a s' hs
  obtain ⟨taken, hunread, hsame⟩ := hy s a s' ((h s a s').1 hs)
  exact ⟨taken, hunread, fun hmore rest => (h _ _ _).2 (hsame hmore rest)⟩

end Local

/-! ## The input -/

namespace Inbound

theorem takeLine_local : Local takeLine := by
  intro i line? i' h
  obtain ⟨unread, queued, consumed⟩ := i
  match queued, unread with
  | next :: others, _ =>
    cases h
    exact ⟨[], rfl, fun _ _ => rfl⟩
  | [], [] =>
    cases h
    exact ⟨[], rfl, fun hmore => absurd rfl hmore⟩
  | [], b :: more =>
    have hshort := short_of_takeLine rfl h
    by_cases hlf : Bytes.lf ∈ b :: more
    · obtain ⟨line, rest, hsplit, hline⟩ := List.eq_append_cons_of_mem hlf
      rw [hsplit, takeWhile_of_line hline] at hshort
      rw [takeLine_of_line rfl hline hshort hsplit] at h
      cases h
      refine ⟨line ++ [Bytes.lf], by rw [List.append_assoc]; exact hsplit, fun _ rest' => ?_⟩
      exact takeLine_of_line rfl hline hshort (by rw [List.append_assoc]; rfl)
    · -- The last line ends with the input.
      rw [takeWhile_of_last hlf] at hshort
      rw [takeLine_of_last rfl (List.cons_ne_nil b more) hlf hshort] at h
      cases h
      exact ⟨b :: more, (List.append_nil _).symm, fun hmore => absurd rfl hmore⟩

/-- Takes the next line. There has to be one. -/
def lineOr (place : Truncation) : Action Inbound Bytes := do
  match ← takeLine with
  | some line => pure line
  | none => throw (.truncated place)

theorem lineOr_local (place : Truncation) : Local (lineOr place) :=
  .bind takeLine_local fun line? => by
    cases line? with
    | none => exact .throw _
    | some line => exact .pure line

theorem takeBytes_local (count : Nat) : Local (takeBytes count) := by
  intro i data i' h
  obtain ⟨hq, _, rfl, hunread, rfl⟩ := takeBytes_eq_ok.1 h
  exact ⟨data, hunread, fun _ rest =>
    takeBytes_of_append (i := refeed (data ++ rest) i) hq rfl⟩

theorem takeSealedBlock_local (suite : Suite) (sealing : Sealing) :
    Local (takeSealedBlock suite sealing) := by
  intro i _ i' h
  cases he : sealing.enabled with
  | false =>
    cases (takeSealedBlock_of_clear he).symm.trans h
    exact ⟨[], rfl, fun _ rest => takeSealedBlock_of_clear he⟩
  | true =>
    obtain ⟨block, text, _, hblock, hshort, hopens, hunread, rfl⟩ :=
      (takeSealedBlock_eq_ok he).1 h
    exact ⟨block ++ blankLine, hunread, fun _ rest => takeSealedBlock_of_block
      (i := refeed (block ++ blankLine ++ rest) i) he hblock hshort rfl hopens⟩

end Inbound

/-! ## Payloads -/

namespace Payload

theorem takeBlankLine_eq (identifier : Bytes) : takeBlankLine identifier =
    Inbound.lineOr (.afterResource identifier) >>= fun line =>
      if Bytes.trim line ≠ [] then throw (.rejected (.noBlankLine (Bytes.trim line)))
      else pure () := by
  funext i
  unfold takeBlankLine Inbound.lineOr
  simp only [bind, EStateM.bind]
  cases Inbound.takeLine i with
  | error failure i₁ => rfl
  | ok line? i₁ =>
    cases line? with
    | none => rfl
    | some line =>
      dsimp only
      change _ = (if Bytes.trim line ≠ [] then throw (.rejected (.noBlankLine (Bytes.trim line)))
        else pure () : Action Inbound Unit) i₁
      split <;> rfl

theorem takeBlankLine_local (identifier : Bytes) : Local (takeBlankLine identifier) := by
  rw [takeBlankLine_eq]
  exact .bind (Inbound.lineOr_local _) fun line => .ite (.throw _) (.pure ())

theorem onInbound_local {α : Type} {action : Action Inbound α} (h : Local action) :
    Local (Receiving.onInbound action) := by
  intro r a r' hr
  unfold Receiving.onInbound at hr
  cases hx : action r.inbound with
  | error failure inbound =>
    rw [hx] at hr
    cases hr
  | ok b inbound =>
    rw [hx] at hr
    cases hr
    obtain ⟨taken, hunread, hsame⟩ := h _ _ _ hx
    refine ⟨taken, hunread, fun hmore rest => ?_⟩
    have hagain : action (refeed (taken ++ rest) r).inbound = .ok a (refeed rest inbound) :=
      hsame hmore rest
    unfold Receiving.onInbound
    rw [hagain]
    rfl

theorem onStore_local {α : Type} (action : Action Store α) :
    Local (Receiving.onStore action) := by
  refine .of_mirrors (fun bytes r => ?_) fun r => ?_
  · unfold Receiving.onStore
    change (match action r.store with | _ => _) = _
    cases action r.store <;> rfl
  · unfold final Receiving.onStore
    cases action r.store <;> rfl

/-- Opens what was taken, and writes it to a slot. -/
def write (suite : Suite) (sealing : Sealing) (slot : Slot) (data : Bytes) :
    Action Receiving Slot := fun r =>
  match sealing.decrypt suite data with
  | .error fault => .error (.cipher fault) r
  | .ok payload =>
    let (slot, store) := r.store.write slot payload
    .ok slot { r with store }

theorem write_local (suite : Suite) (sealing : Sealing) (slot : Slot) (data : Bytes) :
    Local (write suite sealing slot data) := by
  refine .of_mirrors (fun bytes r => ?_) fun r => ?_
  · unfold write
    cases sealing.decrypt suite data <;> rfl
  · unfold final write
    cases sealing.decrypt suite data <;> rfl

theorem fill_eq (suite : Suite) (sealing : Sealing) (length : Nat) (slot : Slot) :
    fill suite sealing length slot =
      Receiving.onInbound (Inbound.takeBytes length) >>= write suite sealing slot := by
  funext r
  unfold fill
  simp only [bind, EStateM.bind]
  cases Receiving.onInbound (Inbound.takeBytes length) r <;> rfl

theorem fill_local (suite : Suite) (sealing : Sealing) (length : Nat) (slot : Slot) :
    Local (fill suite sealing length slot) := by
  rw [fill_eq]
  exact .bind (onInbound_local (Inbound.takeBytes_local length)) (write_local suite sealing slot)

/-- Takes a payload into a slot that is not given back if that fails. -/
def hold (suite : Suite) (sealing : Sealing) (length : Nat) (slot : Slot) :
    Action Receiving Unit :=
  if slot.cached then Receiving.onInbound (Inbound.takeBytes length) >>= fun _ => pure ()
  else fill suite sealing length slot >>= fun slot => Receiving.onStore (Store.commit slot)

theorem keep_eq_ok {suite : Suite} {sealing : Sealing} {length : Nat} {slot : Slot}
    {r r' : Receiving} :
    keep suite sealing length slot r = .ok () r' ↔ hold suite sealing length slot r = .ok () r' := by
  unfold keep hold
  split
  · simp only [bind, EStateM.bind]
    cases Receiving.onInbound (Inbound.takeBytes length) r <;> exact Iff.rfl
  · simp only [bind, EStateM.bind]
    cases fill suite sealing length slot r with
    | ok slot r₁ => exact Iff.rfl
    | error failure r₁ => exact ⟨nofun, nofun⟩

theorem keep_local (suite : Suite) (sealing : Sealing) (length : Nat) (slot : Slot) :
    Local (keep suite sealing length slot) := by
  have hhold : Local (hold suite sealing length slot) := .ite
    (.bind (onInbound_local (Inbound.takeBytes_local length)) fun _ => .pure ())
    (.bind (fill_local suite sealing length slot) fun slot => onStore_local (Store.commit slot))
  exact .of_eq_ok (fun _ _ _ => keep_eq_ok) hhold

theorem receive_local (suite : Suite) (sealing : Sealing) (headers : Headers) :
    Local (receive suite sealing headers) :=
  .bind (.check _) fun (identifier, length) => .bind (onStore_local _) fun slot =>
    .bind (keep_local suite sealing length slot) fun _ =>
      .bind (onInbound_local (takeBlankLine_local identifier)) fun _ => .pure _

end Payload

/-! ## The reading -/

namespace Reading

variable {gate : Gate}

theorem onInbound_local {α : Type} {action : Action Inbound α} (h : Local action) :
    Local (onInbound action) := by
  intro r a r' hr
  obtain ⟨inbound, hx, rfl⟩ := onInbound_eq_ok.1 hr
  obtain ⟨taken, hunread, hsame⟩ := h _ _ _ hx
  exact ⟨taken, hunread, fun hmore rest =>
    onInbound_eq_ok.2 ⟨refeed rest inbound, hsame hmore rest, rfl⟩⟩

theorem Secluded.local {α : Type} {x : Action Reading α} (hx : Secluded x) : Local x :=
  .of_mirrors (fun bytes => hx.mirrors (fun c => { c with inbound := refeed bytes c.inbound })
    fun _ => rfl) fun r => congrArg (fun c => c.inbound.unread) (hx.keeps r)

theorem nextLine_eq :
    nextLine = get >>= fun r => onInbound (Inbound.lineOr (.during r.phase)) := by
  funext r
  change (onInbound Inbound.takeLine >>= _ : Action Reading Bytes) r =
    onInbound (Inbound.lineOr (.during r.phase)) r
  unfold onInbound Inbound.lineOr
  simp only [bind, EStateM.bind]
  cases Inbound.takeLine r.inbound with
  | error failure i => rfl
  | ok line? i => cases line? <;> rfl

theorem nextLine_local : Local nextLine := by
  rw [nextLine_eq]
  exact .get_bind (fun _ _ => rfl) fun _ => onInbound_local (Inbound.lineOr_local _)

theorem receive_local (suite : Suite) : Local (receive suite) := by
  intro r resource r' hr
  unfold receive at hr
  cases hx : Payload.receive suite r.sealing r.block r.receiving with
  | error failure left =>
    rw [hx] at hr
    cases hr
  | ok resource left =>
    rw [hx] at hr
    cases hr
    obtain ⟨taken, hunread, hsame⟩ := Payload.receive_local suite r.sealing r.block _ _ _ hx
    refine ⟨taken, hunread, fun hmore rest => ?_⟩
    have hagain : Payload.receive suite (refeed (taken ++ rest) r).sealing
        (refeed (taken ++ rest) r).block (refeed (taken ++ rest) r).receiving =
          .ok resource (refeed rest left) := hsame hmore rest
    unfold receive
    rw [hagain]
    rfl

theorem readResourceData_local (suite : Suite) : Local (readResourceData suite) :=
  .get_bind (fun _ _ => rfl) fun _ => .bind (.check _) fun _ =>
    .bind (receive_local suite) fun resource => (attach_secluded resource).local

theorem grant_local (line : RequestLine) (access : Access) : Local (grant gate line access) :=
  .bind (.modify (fun _ _ => rfl) fun _ => rfl) fun _ => .ite
    (.bind (.check _) fun _ => .modify (fun _ _ => rfl) fun _ => rfl) (.pure ())

theorem decide_local (line : RequestLine) : Local (decide gate line) := by
  unfold decide
  cases Access.decide gate.suite gate.keyring gate.policy line with
  | ok access => exact .pure access
  | error failure => exact .throw failure

theorem openHeaders_local : Local (openHeaders gate) :=
  .get_bind (fun _ _ => rfl) fun _ => onInbound_local (Inbound.takeSealedBlock_local _ _)

theorem readRequestLine_eq : readRequestLine gate =
    onInbound (Inbound.lineOr .beforeRequestLine) >>= fun text =>
      check (RequestLine.parse text) >>= fun line => decide gate line >>= fun access =>
        grant gate line access >>= fun _ => openHeaders gate >>= fun _ =>
          pure .requestHeaders := by
  funext r
  unfold readRequestLine onInbound Inbound.lineOr
  simp only [bind, EStateM.bind]
  cases Inbound.takeLine r.inbound with
  | error failure i => rfl
  | ok line? i => cases line? <;> rfl

theorem readRequestLine_local : Local (readRequestLine gate) := by
  rw [readRequestLine_eq]
  exact .bind (onInbound_local (Inbound.lineOr_local _)) fun _ => .bind (.check _) fun line =>
    .bind (decide_local line) fun access => .bind (grant_local line access) fun _ =>
      .bind openHeaders_local fun _ => .pure _

theorem step_local : Local (step gate) :=
  .get_bind (fun _ _ => rfl) fun r => by
    cases r.phase with
    | requestLine => exact readRequestLine_local
    | requestHeaders => exact .bind nextLine_local fun line => (requestHeader_secluded line).local
    | typeHeaders => exact .bind nextLine_local fun line => (typeHeader_secluded line).local
    | resourceHeaders => exact .bind nextLine_local fun line => (resourceHeader_secluded line).local
    | resourceData => exact readResourceData_local gate.suite
    | complete | answered => exact .throw _

theorem advance_local : Local (advance gate) :=
  .bind step_local fun _ => .modify (fun _ _ => rfl) fun _ => rfl

/-- What is true of every step is true of the loop. -/
theorem proceed_local : Local (proceed gate) := by
  intro r a r' h
  induction r using proceed.induct gate with
  | case1 r hp _ r₁ h₁ ih =>
    rw [proceed_of_advance hp h₁] at h
    obtain ⟨first, hfirst, hsame₁⟩ := advance_local r _ r₁ h₁
    obtain ⟨second, hsecond, hsame₂⟩ := ih h
    refine ⟨first ++ second, by rw [hfirst, hsecond, List.append_assoc], fun hmore rest => ?_⟩
    have hmore₁ : unread r₁ ≠ [] := by
      rw [hsecond]
      exact List.append_ne_nil_of_right_ne_nil second hmore
    have hstep := hsame₁ hmore₁ (second ++ rest)
    rw [← List.append_assoc] at hstep
    have hp' : (refeed (first ++ second ++ rest) r).phase.isUnderWay := hp
    rw [proceed_of_advance hp' hstep]
    exact hsame₂ hmore rest
  | case2 r hp failure r₁ h₁ =>
    rw [proceed_of_failure hp h₁] at h
    cases h
  | case3 r hp =>
    rw [proceed_of_over hp] at h
    obtain ⟨_, rfl⟩ := EStateM.Result.ok.inj h
    refine ⟨[], rfl, fun _ rest => ?_⟩
    have hp' : ¬ (refeed ([] ++ rest) r).phase.isUnderWay := hp
    exact proceed_of_over hp'

/-! ## The whole reading -/

variable {consumed rest : Bytes} {s : Store} {request : Request} {r : Reading}

theorem finish_start_eq (input : Bytes) : finish gate (start input s) =
    (advance gate >>= fun _ => proceed gate >>= fun _ => get >>= fun r => pure r.request)
      (start input s) := finish_of_requestLine rfl

/-- A request that was read to its end is read the same with another rest behind it. -/
theorem parse_refeed (hrest : rest ≠ [])
    (h : parse gate (start (consumed ++ rest) s) = .ok (some request) r)
    (hstop : r.inbound.unread = rest) (rest' : Bytes) :
    parse gate (start (consumed ++ rest') s) = .ok (some request) (refeed rest' r) := by
  have hlocal : Local (advance gate >>= fun _ => proceed gate >>= fun _ =>
      get >>= fun r => pure r.request : Action Reading Request) :=
    .bind advance_local fun _ => .bind proceed_local fun _ =>
      .get_bind (fun _ _ => rfl) fun r => .pure r.request
  rw [parse_eq_some, finish_start_eq] at h ⊢
  obtain ⟨taken, hunread, hsame⟩ := hlocal _ _ _ h
  have htaken : consumed ++ rest = taken ++ r.inbound.unread := hunread
  rw [hstop] at htaken
  cases List.append_cancel_right htaken
  have hmore : r.inbound.unread ≠ [] := hstop.symm ▸ hrest
  exact hsame hmore rest'

/-- What follows a request has no bearing on how it is read, and it is left as it is. -/
theorem parse_stops (hrest : rest ≠ [])
    (h : parse gate (start (consumed ++ rest) s) = .ok (some request) r)
    (hstop : r.inbound.unread = rest) (rest' : Bytes) (now : Int) :
    ∃ request' r', parse { gate with now } (start (consumed ++ rest') s) = .ok (some request') r' ∧
      request'.undated = request.undated ∧ r'.store = r.store ∧
      r'.inbound = { r.inbound with unread := rest' } := by
  have hagain := parse_refeed hrest h hstop rest'
  have htime : timelessly (parse { gate with now } (start (consumed ++ rest') s)) =
      .ok (some request.undated) (refeed rest' r).untimed := by
    rw [parse_at_other_time, hagain]
    rfl
  obtain ⟨request', r', hparse, hundated, huntimed⟩ := eq_some_of_timelessly htime
  have hstore : r'.untimed.store = (refeed rest' r).untimed.store := congrArg store huntimed
  have hinbound : r'.untimed.inbound = (refeed rest' r).untimed.inbound :=
    congrArg inbound huntimed
  exact ⟨request', r', hparse, hundated, hstore, hinbound⟩

/-- A notification that is followed by another one. -/
def notice : Bytes :=
  [ascii "GNTP/1.0 NOTIFY NONE", ascii "Application-Name: A", []].flatMap (· ++ Bytes.crlf)

theorem parse_stops_before_notice :
    ∃ request r, parse { suite := .full } (start (notice ++ notice) .discard) =
        .ok (some request) r ∧ r.inbound.unread = notice ∧
      ∃ request' r', parse { suite := .full, now := 5 } (start (notice ++ []) .discard) =
          .ok (some request') r' ∧ request'.undated = request.undated ∧
        r'.inbound.unread = [] := by
  have hcomplete : Completes (fun _ r => r.inbound.unread == notice)
      (parse { suite := .full } (start (notice ++ notice) .discard)) := by
    decide +kernel
  obtain ⟨request, r, h, hleft⟩ := eq_some_of_completes hcomplete
  have hstop : r.inbound.unread = notice := eq_of_beq hleft
  obtain ⟨request', r', hparse, hsame, _, hleft'⟩ := parse_stops (by decide) h hstop [] 5
  exact ⟨request, r, h, hstop, request', r', hparse, hsame, by rw [hleft']⟩

end Reading

end Gntp
