import Gntp.Proofs.CompleteRequests
import Gntp.Proofs.Phases

/-!
# What header lines add to a request

`Collected.Adds` says what a header line adds to what was collected before it: a header, or a blank
line that closes a block of headers or is skipped. Every step that wants a header takes such a line
(`Reading.adds_of_advance`), and behind the headers nothing is added any more
(`Reading.headings_of_advance`). So every entry was read from a header line on the way
(`Reading.readFrom_of_proceed`).

Lines that are queued come first. A line that is drawn from the queue closes in the reading as many
blocks as are fewer then in the queue (`Collected.Adds.balance`), which tells how far a queue goes:
no header is wanted with an empty queue if there were enough blocks in it
(`Reading.queued_of_enough`), and only then (`Reading.enough_of_queued`).
-/

namespace Gntp

open Gntp.Action

namespace Headers

variable {h : Headers} {source source' : Bytes → Prop} {lines : List Bytes}
  {line key value : Bytes}

/-- How many blocks of headers the lines hold. A blank line ends a block, and those before the first
header are none. -/
def blocks (lines : List Bytes) : Nat := (lines.dropWhile (· = [])).count []

theorem blocks_blank : blocks ([] :: lines) = blocks lines := rfl

theorem blocks_of_header (hline : line ≠ []) : blocks (line :: lines) = lines.count [] := by
  rw [blocks, List.dropWhile_cons_of_neg (by simpa using hline), List.count_cons_of_ne hline]

theorem isEmpty_set : (h.set key value).isEmpty = false := by
  obtain ⟨entries⟩ := h
  unfold isEmpty set
  fun_cases Assoc.set key value entries <;> rfl

theorem ne_nil_of_parseLine (h : parseLine line = .ok (key, value)) : line ≠ [] := by
  rintro rfl
  cases h

/-- Every entry was read from such a line. -/
def ReadFrom (h : Headers) (source : Bytes → Prop) : Prop :=
  ∀ entry ∈ h.entries, ∃ line, source line ∧ parseLine line = .ok entry

/-- Blank lines do not matter. -/
theorem ReadFrom.mono (hfrom : h.ReadFrom source)
    (hsource : ∀ line, source line → line ≠ [] → source' line) : h.ReadFrom source' :=
  fun entry hmem =>
    have ⟨line, hline, hparse⟩ := hfrom entry hmem
    ⟨line, hsource line hline (ne_nil_of_parseLine hparse), hparse⟩

theorem ReadFrom.set (hfrom : h.ReadFrom source) (hline : source line)
    (hparse : parseLine line = .ok (key, value)) : (h.set key value).ReadFrom source := by
  intro entry hmem
  rcases Assoc.mem_of_mem_set hmem with rfl | hmem
  · exact ⟨line, hline, hparse⟩
  · exact hfrom entry hmem

end Headers

/-- Every entry of the headers of a request and of its types was read from such a line. -/
structure Request.ReadFrom (request : Request) (source : Bytes → Prop) : Prop where
  headers : request.headers.ReadFrom source
  types : ∀ type ∈ request.types, ∃ block : Headers,
    TypeDeclaration.ofHeaders block = .ok type ∧ block.ReadFrom source

theorem Request.ReadFrom.mono {request : Request} {source source' : Bytes → Prop}
    (hfrom : request.ReadFrom source)
    (hsource : ∀ line, source line → line ≠ [] → source' line) : request.ReadFrom source' where
  headers := hfrom.headers.mono hsource
  types type hmem :=
    have ⟨block, htype, hblock⟩ := hfrom.types type hmem
    ⟨block, htype, hblock.mono hsource⟩

theorem TypeDeclaration.ofHeaders_empty : ofHeaders {} = .error .namelessType := rfl

/-! ## What a header line adds -/

/-- What has been collected from header lines. -/
structure Collected where
  phase : Phase
  headers : Headers
  types : List TypeDeclaration
  /-- The headers of the type that is being declared. -/
  block : Headers

namespace Collected

/-- The next line is wanted as a header of the request or of a notification type. -/
def Wanting (c : Collected) : Prop := c.phase = .requestHeaders ∨ c.phase = .typeHeaders

/-- What a header line adds. -/
inductive Adds : Collected → Bytes → Collected → Prop
  /-- Blank lines before the first header are skipped. -/
  | skipped {headers block : Headers} {types : List TypeDeclaration}
      (hempty : headers.isEmpty = true) :
      Adds ⟨.requestHeaders, headers, types, block⟩ [] ⟨.requestHeaders, headers, types, block⟩
  | header {headers block : Headers} {types : List TypeDeclaration} {line key value : Bytes}
      (hparse : Headers.parseLine line = .ok (key, value)) :
      Adds ⟨.requestHeaders, headers, types, block⟩ line
        ⟨.requestHeaders, headers.set key value, types, block⟩
  | closed {headers block block' : Headers} {types : List TypeDeclaration} {phase : Phase}
      (hsome : headers.isEmpty = false) (hphase : phase ≠ .requestHeaders)
      (hblock : phase = .typeHeaders → block' = {}) :
      Adds ⟨.requestHeaders, headers, types, block⟩ [] ⟨phase, headers, types, block'⟩
  | typeHeader {headers block : Headers} {types : List TypeDeclaration} {line key value : Bytes}
      (hparse : Headers.parseLine line = .ok (key, value)) :
      Adds ⟨.typeHeaders, headers, types, block⟩ line
        ⟨.typeHeaders, headers, types, block.set key value⟩
  | declared {headers block : Headers} {types : List TypeDeclaration} {type : TypeDeclaration}
      {phase : Phase} (htype : TypeDeclaration.ofHeaders block = .ok type)
      (hphase : phase ≠ .requestHeaders) :
      Adds ⟨.typeHeaders, headers, types, block⟩ [] ⟨phase, headers, types ++ [type], {}⟩

variable {c c' : Collected} {line : Bytes} {lines : List Bytes}

/-- How many blocks of headers are closed. -/
def closed (c : Collected) : Nat := c.types.length + if c.phase = .requestHeaders then 0 else 1

/-- How many more blocks these lines close. -/
def closedBy (c : Collected) (lines : List Bytes) : Nat :=
  if c.phase = .requestHeaders ∧ c.headers.isEmpty = true then Headers.blocks lines
  else lines.count []

theorem closedBy_nil : c.closedBy [] = 0 := by
  unfold closedBy
  split <;> rfl

/-- What a line closes is closed behind it. -/
theorem Adds.balance (h : c.Adds line c') :
    c'.closedBy lines + c'.closed = c.closedBy (line :: lines) + c.closed := by
  unfold closedBy Collected.closed
  cases h with
  | skipped hempty => simp [hempty, Headers.blocks_blank]
  | @header headers _ _ _ _ _ hparse =>
    have hline := Headers.ne_nil_of_parseLine hparse
    cases headers.isEmpty <;>
      simp [Headers.isEmpty_set, Headers.blocks_of_header hline, List.count_cons_of_ne hline]
  | closed hsome hphase _ =>
    simp [hsome, hphase]
    omega
  | typeHeader hparse => simp [List.count_cons_of_ne (Headers.ne_nil_of_parseLine hparse)]
  | declared _ hphase =>
    simp [hphase]
    omega

theorem Adds.closed_le (h : c.Adds line c') : c.closed ≤ c'.closed := by
  unfold Collected.closed
  cases h with
  | skipped | header | typeHeader => exact Nat.le_refl _
  | closed => exact Nat.add_le_add_left (Nat.zero_le _) _
  | declared _ hphase =>
    rw [List.length_append, if_neg hphase]
    exact Nat.le_add_right _ _

/-- The headers are left behind a block that was closed. -/
theorem Adds.closed_lt (h : c.Adds line c') (hleft : ¬ c'.Wanting) : c.closed < c'.closed := by
  unfold Collected.closed
  cases h with
  | skipped | header => exact absurd (.inl rfl) hleft
  | typeHeader => exact absurd (.inr rfl) hleft
  | closed _ hphase _ =>
    rw [if_pos rfl, if_neg hphase]
    exact Nat.lt_succ_self _
  | declared _ hphase =>
    rw [List.length_append, if_neg hphase, if_neg nofun]
    exact Nat.lt_succ_self _

theorem closed_of_not_wanting (h : ¬ c.Wanting) : c.closed = c.types.length + 1 := by
  unfold Collected.closed
  rw [if_neg fun hp => h (.inl hp)]

/-- Nothing of the block that is wanted has come yet. -/
structure Fresh (c : Collected) : Prop where
  headers : c.phase = .requestHeaders → c.headers.isEmpty = true
  block : c.phase = .typeHeaders → c.block = {}

/-- After a blank line everything of the next block is still to come. -/
theorem Adds.fresh (h : c.Adds [] c') : c'.Fresh := by
  cases h with
  | skipped hempty => exact ⟨fun _ => hempty, nofun⟩
  | header hparse | typeHeader hparse => exact absurd rfl (Headers.ne_nil_of_parseLine hparse)
  | closed _ hphase hblock => exact ⟨fun hp => absurd hp hphase, hblock⟩
  | declared _ hphase => exact ⟨fun hp => absurd hp hphase, fun _ => rfl⟩

/-- A block of which nothing has come is not closed. -/
theorem Adds.eq_of_fresh (h : c.Adds [] c') (hfresh : c.Fresh) : c' = c := by
  cases h with
  | skipped => rfl
  | header hparse | typeHeader hparse => exact absurd rfl (Headers.ne_nil_of_parseLine hparse)
  | closed hsome => cases (hfresh.headers rfl).symm.trans hsome
  | declared htype =>
    have hblock := hfresh.block rfl
    dsimp only at hblock
    rw [hblock, TypeDeclaration.ofHeaders_empty] at htype
    cases htype

/-- Every entry so far was read from such a line. -/
structure ReadFrom (c : Collected) (source : Bytes → Prop) : Prop where
  headers : c.headers.ReadFrom source
  types : ∀ type ∈ c.types, ∃ block : Headers,
    TypeDeclaration.ofHeaders block = .ok type ∧ block.ReadFrom source
  block : c.phase = .typeHeaders → c.block.ReadFrom source

theorem Adds.readFrom {source : Bytes → Prop} (h : c.Adds line c') (hc : c.ReadFrom source)
    (hline : source line) : c'.ReadFrom source := by
  cases h with
  | skipped => exact hc
  | header hparse => exact { hc with headers := hc.headers.set hline hparse, block := nofun }
  | closed _ _ hblock =>
    refine { hc with block := fun hp => ?_ }
    rw [hblock hp]
    exact nofun
  | typeHeader hparse => exact { hc with block := fun _ => (hc.block rfl).set hline hparse }
  | declared htype =>
    refine { hc with types := fun type hmem => ?_, block := fun _ => nofun }
    rcases List.mem_append.1 hmem with hmem | hmem
    · exact hc.types type hmem
    · rw [List.mem_singleton.1 hmem]
      exact ⟨_, htype, hc.block rfl⟩

end Collected

theorem Inbound.queued_of_takeLine {i i' : Inbound} {line : Bytes}
    (h : takeLine i = .ok (some line) i') :
    i.queued = line :: i'.queued ∨ i.queued = [] ∧ i'.queued = [] := by
  obtain ⟨unread, queued, consumed⟩ := i
  match queued, unread with
  | next :: others, _ =>
    cases h
    exact .inl rfl
  | [], [] => cases h
  | [], b :: rest =>
    simp only [takeLine] at h
    split at h <;> cases h
    exact .inr ⟨rfl, rfl⟩

namespace Reading

variable {gate : Gate} {suite : Suite} {r r' r₁ : Reading} {line : Bytes}

def collected (r : Reading) : Collected where
  phase := r.phase
  headers := r.request.headers
  types := r.request.types
  block := r.block

theorem noteReference_leads_collected {value : Bytes} :
    (noteReference value).Leads r (fun _ r' => r'.collected = r.collected) fun _ => True :=
  (noteReference_leads trivial).mono fun _ _ ⟨_, h, _⟩ => by rw [h]; rfl

/-- What follows the header blocks is none of them. -/
theorem afterTypes_ne (r : Reading) :
    r.afterTypes ≠ .requestHeaders ∧ r.afterTypes ≠ .typeHeaders := by
  obtain heq | heq := afterTypes_eq r <;> rw [heq] <;> exact ⟨nofun, nofun⟩

theorem requestHeader_adds (hp : r.phase = .requestHeaders) :
    (requestHeader line).Leads r
      (fun phase r' => r.collected.Adds line { r'.collected with phase }) fun _ => True := by
  have hbefore : r.collected = ⟨.requestHeaders, r.request.headers, r.request.types, r.block⟩ := by
    rw [collected, hp]
  rw [hbefore]
  unfold requestHeader
  split
  · refine .get_bind (.check_bind (fun recorded hrecord => .modify_bind ?_) fun _ _ => trivial)
    obtain ⟨⟨key, value⟩, headers⟩ := recorded
    obtain ⟨hparse, rfl⟩ := Headers.record_eq_ok.1 hrecord
    refine .bind noteReference_leads_collected fun _ r' h => .pure ?_
    rw [h]
    exact .header hparse
  · next hblank =>
    rw [not_not.1 hblank]
    refine .get_bind ?_
    split
    · next hempty => exact .pure (.skipped hempty)
    · next hsome =>
      have hsome : r.request.headers.isEmpty = false := Bool.eq_false_iff.2 hsome
      refine .get_bind ?_
      split
      · exact .get_bind (.pure (.closed hsome r.afterTypes_ne.1 fun h =>
          absurd h r.afterTypes_ne.2))
      · refine .get_bind (.check_bind (fun typeCount _ => .modify_bind ?_) fun _ _ => trivial)
        split
        · exact .get_bind (.pure (.closed hsome (afterTypes_ne _).1 fun h =>
            absurd h (afterTypes_ne _).2))
        · exact .modify_bind (.pure (.closed hsome nofun fun _ => rfl))

theorem typeHeader_adds (hp : r.phase = .typeHeaders) :
    (typeHeader line).Leads r
      (fun phase r' => r.collected.Adds line { r'.collected with phase }) fun _ => True := by
  have hbefore : r.collected = ⟨.typeHeaders, r.request.headers, r.request.types, r.block⟩ := by
    rw [collected, hp]
  rw [hbefore]
  unfold typeHeader
  split
  · refine .get_bind (.check_bind (fun recorded hrecord => .modify_bind ?_) fun _ _ => trivial)
    obtain ⟨⟨key, value⟩, block⟩ := recorded
    obtain ⟨hparse, rfl⟩ := Headers.record_eq_ok.1 hrecord
    refine .bind noteReference_leads_collected fun _ r' h => .pure ?_
    rw [h]
    exact .typeHeader hparse
  · next hblank =>
    rw [not_not.1 hblank]
    refine .get_bind (.check_bind (fun type htype => .modify_bind (.get_bind (.pure ?_)))
      fun _ _ => trivial)
    split
    · exact .declared htype nofun
    · exact .declared htype (afterTypes_ne _).1

/-- A line that is taken as a header is added. -/
theorem adds_of_line {f : Bytes → Action Reading Phase} {phase : Phase}
    (hwanting : r.collected.Wanting) (hf : ∀ line, Keeps inbound (f line))
    (hadds : ∀ (r₁ : Reading) (line : Bytes), r₁.phase = r.phase → (f line).Leads r₁
      (fun phase r' => r₁.collected.Adds line { r'.collected with phase }) fun _ => True)
    (h : (nextLine >>= f) r = .ok phase r') :
    ∃ line, r.Offers line ∧ Inbound.takeLine r.inbound = .ok (some line) r'.inbound ∧
      r.collected.Adds line { r'.collected with phase } := by
  obtain ⟨line, r₁, hnext, hadd⟩ := bind_eq_ok.1 h
  obtain ⟨htake, hr₁⟩ :=
    (nextLine_leads (E := fun _ => True) trivial fun _ => trivial).of_ok hnext
  have hkept : r'.inbound = r₁.inbound := (hf line).of_ok hadd
  have hcollected : r₁.collected = r.collected := by
    rw [hr₁]
    rfl
  have hphase : r₁.phase = r.phase := by rw [hr₁]
  rw [hkept, ← hcollected]
  exact ⟨line, ⟨hwanting, _, htake⟩, htake, (hadds r₁ line hphase).of_ok hadd⟩

/-- A step that wants a header takes the next line and adds it. -/
theorem adds_of_step {phase : Phase} (hwanting : r.collected.Wanting)
    (h : step gate r = .ok phase r') :
    ∃ line, r.Offers line ∧ Inbound.takeLine r.inbound = .ok (some line) r'.inbound ∧
      r.collected.Adds line { r'.collected with phase } := by
  rw [step_eq] at h
  rcases id hwanting with hp | hp
  · rw [show r.phase = .requestHeaders from hp] at h
    exact adds_of_line hwanting (requestHeader_keeps bystander_inbound)
      (fun _ _ hsame => requestHeader_adds (hsame.trans hp)) h
  · rw [show r.phase = .typeHeaders from hp] at h
    exact adds_of_line hwanting (typeHeader_keeps bystander_inbound)
      (fun _ _ hsame => typeHeader_adds (hsame.trans hp)) h

theorem adds_of_advance (hwanting : r.collected.Wanting) (h : advance gate r = .ok () r') :
    ∃ line, r.Offers line ∧ Inbound.takeLine r.inbound = .ok (some line) r'.inbound ∧
      r.collected.Adds line r'.collected := by
  obtain ⟨phase, r₂, hstep, h⟩ := bind_eq_ok.1 h
  have hadds := adds_of_step hwanting hstep
  cases h
  exact hadds

/-- The headers of a request and of its types. -/
def headings (r : Reading) : Headers × List TypeDeclaration := (r.request.headers, r.request.types)

theorem resourceHeader_keeps_headings (line : Bytes) : Keeps headings (resourceHeader line) := by
  unfold resourceHeader
  split
  · exact .bind .get fun _ => .bind (.check _) fun _ => .bind (.modify fun _ => rfl) fun _ =>
      .pure _
  · exact .bind .get fun _ => .pure _

theorem readResourceData_keeps_headings : Keeps headings (readResourceData suite) := by
  have hreceive : Keeps headings (receive suite) := fun r =>
    congrArg (fun request => (request.headers, request.types)) (receive_keeps_request r)
  exact .bind .get fun _ => .bind (.check _) fun _ => .bind hreceive fun _ =>
    .bind .get fun _ => .bind (.check _) fun _ => .bind (.modify fun _ => rfl) fun _ =>
      .bind .get fun _ => .pure _

/-- Behind the headers nothing is added to them, and no header is wanted. -/
theorem headings_of_advance (hwanting : ¬ r.collected.Wanting) (hp : r.phase.isUnderWay)
    (h : advance gate r = .ok () r') : r'.headings = r.headings ∧ ¬ r'.collected.Wanting := by
  have hbehind : r.phase = .resourceHeaders ∨ r.phase = .resourceData := by
    cases hphase : r.phase with
    | requestLine | complete | answered =>
      rw [hphase] at hp
      cases hp
    | requestHeaders => exact absurd (.inl hphase) hwanting
    | typeHeaders => exact absurd (.inr hphase) hwanting
    | resourceHeaders => exact .inl rfl
    | resourceData => exact .inr rfl
  have hneither := Phase.behind_of_mem_next (mem_next_of_advance h) hbehind
  obtain ⟨phase, r₂, hstep, h⟩ := bind_eq_ok.1 h
  have hsame : r₂.headings = r.headings := by
    rw [step_eq] at hstep
    rcases hbehind with hphase | hphase <;> rw [hphase] at hstep
    · have hline : Keeps headings nextLine := nextLine_keeps fun _ _ => rfl
      exact (hline.bind resourceHeader_keeps_headings).of_ok hstep
    · exact readResourceData_keeps_headings.of_ok hstep
  cases h
  exact ⟨hsame, not_or.2 hneither⟩

/-! ## The run -/

theorem isUnderWay_of_wanting (h : r.collected.Wanting) : r.phase.isUnderWay := by
  rcases h with hp | hp <;> rw [show r.phase = _ from hp] <;> rfl

/-- The blocks of headers that there are, those that are closed and those in the queue. -/
def supply (r : Reading) : Nat := r.collected.closedBy r.inbound.queued + r.collected.closed

/-- What is drawn from the queue is still there, and what is not makes more. -/
theorem supply_of_advance (hwanting : r.collected.Wanting) (h : advance gate r = .ok () r') :
    r'.inbound.queued <:+ r.inbound.queued ∧ r.supply ≤ r'.supply := by
  obtain ⟨line, _, htake, hadds⟩ := adds_of_advance hwanting h
  unfold supply
  rcases Inbound.queued_of_takeLine htake with hqueued | ⟨hnone, hnone'⟩
  · rw [hqueued, hadds.balance]
    exact ⟨List.suffix_cons line _, Nat.le_refl _⟩
  · rw [hnone, hnone', Collected.closedBy_nil, Collected.closedBy_nil, Nat.zero_add, Nat.zero_add]
    exact ⟨List.suffix_refl _, hadds.closed_le⟩

theorem closed_of_headings (hwanting : ¬ r.collected.Wanting)
    (hwanting' : ¬ r'.collected.Wanting) (h : r'.headings = r.headings) :
    r'.collected.closed = r.collected.closed := by
  rw [Collected.closed_of_not_wanting hwanting, Collected.closed_of_not_wanting hwanting']
  exact congrArg (fun headings => headings.2.length + 1) h

/-- A block that is wanted is closed before the end. -/
theorem closed_lt_of_proceed (hwanting : r.collected.Wanting) (h : proceed gate r = .ok () r') :
    r.collected.closed < r'.collected.closed := by
  have hend : r.collected.closed ≤ r'.collected.closed ∧
      (¬ r'.collected.Wanting → r.collected.closed < r'.collected.closed) := by
    refine proceed_preserves (P := fun r' => r.collected.closed ≤ r'.collected.closed ∧
      (¬ r'.collected.Wanting → r.collected.closed < r'.collected.closed)) ?_
      ⟨Nat.le_refl _, fun hnot => absurd hwanting hnot⟩ h
    intro r₁ r₂ ⟨hle, hlt⟩ hp hadvance
    by_cases hw : r₁.collected.Wanting
    · obtain ⟨line, _, _, hadds⟩ := adds_of_advance hw hadvance
      exact ⟨Nat.le_trans hle hadds.closed_le,
        fun hleft => Nat.lt_of_le_of_lt hle (hadds.closed_lt hleft)⟩
    · obtain ⟨hsame, hw'⟩ := headings_of_advance hw hp hadvance
      rw [closed_of_headings hw hw' hsame]
      exact ⟨hle, fun _ => hlt hw⟩
  exact hend.2 fun hw => over_of_proceed h (isUnderWay_of_wanting hw)

/-- On the way to a reading that wants a header, lines were drawn from the queue as long as there
were any. -/
theorem supply_of_reaches {named : Bytes → Prop} (hr : r.request.Formed named r.phase)
    (hreach : Reaches gate r r') (hwanting : r'.collected.Wanting) :
    r'.inbound.queued <:+ r.inbound.queued ∧ r.supply ≤ r'.supply := by
  induction hreach with
  | refl => exact ⟨List.suffix_refl _, Nat.le_refl _⟩
  | @tail r₁ r₂ hreach h ih =>
    have hp : r₁.phase.isUnderWay := isUnderWay_of_advance (proceed_of_reaches hr hreach).1 h
    have hw : r₁.collected.Wanting := by
      by_contra hw
      exact (headings_of_advance hw hp h).2 hwanting
    obtain ⟨hsuffix, hle⟩ := ih hw
    obtain ⟨hsuffix', hle'⟩ := supply_of_advance hw h
    exact ⟨hsuffix'.trans hsuffix, Nat.le_trans hle hle'⟩

/-- With enough blocks in the queue, no header is wanted when it is empty. -/
theorem queued_of_enough {named : Bytes → Prop} (hr : r.request.Formed named r.phase)
    (h : proceed gate r = .ok () r') (henough : r'.collected.closed ≤ r.supply)
    (hreach : Reaches gate r r₁) (hwanting : r₁.collected.Wanting) : r₁.inbound.queued ≠ [] := by
  intro hnone
  have hsupply : r.supply ≤ r₁.supply := (supply_of_reaches hr hreach hwanting).2
  have hloop : proceed gate r₁ = .ok () r' := (proceed_of_reaches hr hreach).2.trans h
  have hlt : r₁.collected.closed < r'.collected.closed := closed_lt_of_proceed hwanting hloop
  rw [supply, supply, hnone, Collected.closedBy_nil] at hsupply
  rw [supply] at henough
  omega

/-- The queue is used up at the end of a block only. -/
structure Drawing (r : Reading) : Prop where
  last : r.inbound.queued ≠ [] → r.inbound.queued.getLast? = some []
  fresh : r.inbound.queued = [] → r.collected.Fresh

/-- A step that takes no header off the input but draws from the queue. -/
theorem drawing_of_advance (hr : r.Drawing) (hwanting : r.collected.Wanting)
    (h : advance gate r = .ok () r')
    (hdrawn : ∀ line, r.Offers line → line ≠ [] → r.inbound.queued ≠ []) :
    r'.Drawing ∧ r'.supply = r.supply := by
  obtain ⟨line, hoffers, htake, hadds⟩ := adds_of_advance hwanting h
  unfold supply
  rcases Inbound.queued_of_takeLine htake with hqueued | ⟨hnone, hnone'⟩
  · have hlast : (line :: r'.inbound.queued).getLast? = some [] := by
      rw [← hqueued]
      exact hr.last (by simp [hqueued])
    refine ⟨⟨fun hne => ?_, fun hnil => ?_⟩, by rw [hqueued, hadds.balance]⟩
    · rwa [List.getLast?_cons_of_ne_nil hne] at hlast
    · rw [hnil] at hlast
      cases hlast
      exact hadds.fresh
  · -- A header would not come off the input, so the line is blank.
    have hblank : line = [] := by
      by_contra hline
      exact hdrawn line hoffers hline hnone
    subst hblank
    have hfresh : r.collected.Fresh := hr.fresh hnone
    rw [hnone, hnone', hadds.eq_of_fresh hfresh]
    refine ⟨⟨fun hne => absurd hnone' hne, fun _ => ?_⟩, rfl⟩
    rw [hadds.eq_of_fresh hfresh]
    exact hfresh

/-- With every header drawn from the queue, there were enough blocks in it. -/
theorem enough_of_queued (hr : r.Drawing) (h : proceed gate r = .ok () r')
    (hdrawn : ∀ r₁ line, Reaches gate r r₁ → r₁.Offers line → line ≠ [] →
      r₁.inbound.queued ≠ []) : r'.collected.closed ≤ r.supply := by
  have hend : Reaches gate r r' ∧ r'.collected.closed ≤ r.supply ∧
      (r'.collected.Wanting → r'.Drawing ∧ r'.supply = r.supply) := by
    refine proceed_preserves (P := fun r' => Reaches gate r r' ∧
      r'.collected.closed ≤ r.supply ∧
      (r'.collected.Wanting → r'.Drawing ∧ r'.supply = r.supply)) ?_
      ⟨.refl, Nat.le_add_left _ _, fun _ => ⟨hr, rfl⟩⟩ h
    intro r₁ r₂ ⟨hreach, hle, hdrawing⟩ hp hadvance
    refine ⟨hreach.tail hadvance, ?_⟩
    by_cases hw : r₁.collected.Wanting
    · obtain ⟨hr₁, hsupply⟩ := hdrawing hw
      obtain ⟨hr₂, hsupply'⟩ := drawing_of_advance hr₁ hw hadvance fun line => hdrawn r₁ line hreach
      rw [← hsupply, ← hsupply']
      exact ⟨Nat.le_add_left _ _, fun _ => ⟨hr₂, rfl⟩⟩
    · obtain ⟨hsame, hw'⟩ := headings_of_advance hw hp hadvance
      rw [closed_of_headings hw hw' hsame]
      exact ⟨hle, fun hw₂ => absurd hw₂ hw'⟩
  exact hend.2.1

/-- What is collected was read from the header lines on the way. -/
theorem readFrom_of_proceed (hr : r.collected.ReadFrom (HeaderRead gate r))
    (h : proceed gate r = .ok () r') : r'.request.ReadFrom (HeaderRead gate r) := by
  have hend : Reaches gate r r' ∧ r'.request.ReadFrom (HeaderRead gate r) ∧
      (r'.collected.Wanting → r'.collected.ReadFrom (HeaderRead gate r)) := by
    refine proceed_preserves (P := fun r' => Reaches gate r r' ∧
      r'.request.ReadFrom (HeaderRead gate r) ∧
      (r'.collected.Wanting → r'.collected.ReadFrom (HeaderRead gate r))) ?_
      ⟨.refl, ⟨hr.headers, hr.types⟩, fun _ => hr⟩ h
    intro r₁ r₂ ⟨hreach, hrequest, hcollected⟩ hp hadvance
    refine ⟨hreach.tail hadvance, ?_⟩
    by_cases hw : r₁.collected.Wanting
    · obtain ⟨line, hoffers, _, hadds⟩ := adds_of_advance hw hadvance
      have hr₂ : r₂.collected.ReadFrom (HeaderRead gate r) :=
        hadds.readFrom (hcollected hw) ⟨r₁, hreach, hoffers⟩
      exact ⟨⟨hr₂.headers, hr₂.types⟩, fun _ => hr₂⟩
    · obtain ⟨hsame, hw'⟩ := headings_of_advance hw hp hadvance
      obtain ⟨hheaders, htypes⟩ := Prod.mk.inj hsame
      refine ⟨⟨?_, ?_⟩, fun hw₂ => absurd hw₂ hw'⟩
      · rw [hheaders]
        exact hrequest.headers
      · rw [htypes]
        exact hrequest.types
  exact hend.2.1

end Reading

end Gntp
