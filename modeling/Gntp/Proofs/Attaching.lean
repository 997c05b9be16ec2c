import Gntp.Proofs.CompleteRequests

/-!
# The resources of a request in order

`Attachments.Gathered` are the collections that references and arrivals lead to. The resources that
have come are listed in the byte order of their identifiers (`Gathered.attached_sorted`), however
they came, and what is listed is what can be found (`Gathered.mem_attached`). The resources of a
complete request were gathered in this way (`Reading.gathered_of_parse`).
-/

namespace Gntp

open Gntp.Action

namespace Attachments

variable {a a' : Attachments} {identifier : Bytes} {entries : List (Bytes × Option Resource)}
  {entry : Option Resource}

/-! ## Putting an entry at its place -/

/-- The keys are in strictly increasing order. -/
def Ordered (entries : List (Bytes × Option Resource)) : Prop :=
  entries.Pairwise fun former latter => former.1 < latter.1

/-- A resource stands under its own identifier. -/
def Labelled (entries : List (Bytes × Option Resource)) : Prop :=
  ∀ {identifier : Bytes} {resource : Resource}, (identifier, some resource) ∈ entries →
    resource.identifier = identifier

theorem Ordered.nodup_keys (h : Ordered entries) : (entries.map (·.1)).Nodup := by
  refine List.pairwise_map.2 (h.imp ?_)
  intro former latter hlt heq
  rw [heq] at hlt
  exact List.lt_irrefl _ hlt

theorem mem_of_mem_insert {other : Bytes × Option Resource}
    (h : other ∈ insert identifier entry entries) :
    other = (identifier, entry) ∨ other ∈ entries := by
  fun_induction insert identifier entry entries with
  | case1 => exact .inl (List.mem_singleton.1 h)
  | case2 => exact List.mem_cons.1 h
  | case3 =>
    rcases List.mem_cons.1 h with rfl | h
    · exact .inl rfl
    · exact .inr (List.mem_cons_of_mem _ h)
  | case4 id e rest _ _ ih =>
    rcases List.mem_cons.1 h with rfl | h
    · exact .inr List.mem_cons_self
    · exact (ih h).imp_right (List.mem_cons_of_mem _)

theorem ordered_insert (h : Ordered entries) : Ordered (insert identifier entry entries) := by
  fun_induction insert identifier entry entries with
  | case1 => exact List.pairwise_singleton ..
  | case2 id e rest hlt =>
    refine List.pairwise_cons.2 ⟨fun other hother => ?_, h⟩
    rcases List.mem_cons.1 hother with rfl | hother
    · exact hlt
    · exact List.lt_trans hlt ((List.pairwise_cons.1 h).1 other hother)
  | case3 => exact List.pairwise_cons.2 (List.pairwise_cons.1 h)
  | case4 id e rest hlt hne ih =>
    obtain ⟨hfirst, hrest⟩ := List.pairwise_cons.1 h
    refine List.pairwise_cons.2 ⟨fun other hother => ?_, ih hrest⟩
    rcases mem_of_mem_insert hother with rfl | hother
    · exact Std.lt_of_le_of_ne (List.not_lt.1 hlt) (Ne.symm hne)
    · exact hfirst other hother

theorem labelled_insert (h : Labelled entries)
    (hentry : ∀ resource, entry = some resource → resource.identifier = identifier) :
    Labelled (insert identifier entry entries) := by
  intro id resource hmem
  rcases mem_of_mem_insert hmem with heq | hmem
  · obtain ⟨rfl, rfl⟩ := Prod.mk.inj heq
    exact hentry resource rfl
  · exact h hmem

/-! ## Gathering -/

/-- What references and arrivals lead to. -/
inductive Gathered : Attachments → Prop
  | nothing : Gathered {}
  | refer {a : Attachments} (identifier : Bytes) : Gathered a → Gathered (a.refer identifier)
  | attach {a a' : Attachments} {resource : Resource} :
    Gathered a → a.attach resource = .ok a' → Gathered a'

theorem attach_eq_ok {resource : Resource} :
    a.attach resource = .ok a' ↔ a.find? resource.identifier = none ∧
      a' = ⟨insert resource.identifier (some resource) a.entries⟩ := by
  unfold attach
  cases a.find? resource.identifier with
  | none => simp [eq_comm]
  | some earlier => simp

namespace Gathered

theorem ordered (h : Gathered a) : Ordered a.entries := by
  induction h with
  | nothing => exact .nil
  | refer identifier _ ih =>
    unfold Attachments.refer
    split
    · exact ih
    · exact ordered_insert ih
  | attach _ hattach ih =>
    obtain ⟨_, rfl⟩ := attach_eq_ok.1 hattach
    exact ordered_insert ih

theorem labelled (h : Gathered a) : Labelled a.entries := by
  induction h with
  | nothing =>
    intro _ _ hmem
    cases hmem
  | refer identifier _ ih =>
    unfold Attachments.refer
    split
    · exact ih
    · refine labelled_insert ih fun _ heq => ?_
      cases heq
  | attach _ hattach ih =>
    obtain ⟨_, rfl⟩ := attach_eq_ok.1 hattach
    exact labelled_insert ih fun resource heq => Option.some.inj heq ▸ rfl

/-- The list is in the order of the identifiers, none of which comes twice. -/
theorem attached_sorted (h : Gathered a) :
    a.attached.Pairwise fun former latter => former.identifier < latter.identifier := by
  refine List.pairwise_filterMap.2 (h.ordered.imp_of_mem ?_)
  rintro ⟨id, _⟩ ⟨id', _⟩ hmem hmem' hlt former rfl latter rfl
  rw [h.labelled hmem, h.labelled hmem']
  exact hlt

/-- What is listed is what can be found. -/
theorem mem_attached (h : Gathered a) {resource : Resource} :
    resource ∈ a.attached ↔ a.find? resource.identifier = some resource := by
  rw [attached, List.mem_filterMap, find?, Option.join_eq_some_iff]
  constructor
  · rintro ⟨⟨identifier, entry⟩, hmem, rfl⟩
    rw [h.labelled hmem]
    exact Assoc.lookup_of_mem h.ordered.nodup_keys hmem
  · intro hfound
    exact ⟨_, Assoc.mem_of_lookup hfound, rfl⟩

end Gathered

end Attachments

/-! ## The resources of a complete request -/

namespace Reading

variable {gate : Gate} {input line value : Bytes} {store : Store} {request : Request}
  {r r' : Reading}

/-- The resources of the request were referred to and have come one by one. -/
def Gathered (r : Reading) : Prop := r.request.attachments.Gathered

/-- A step leads from gathered resources to gathered resources. -/
def Gathering (x : Action Reading Phase) : Prop :=
  ∀ {r : Reading}, r.Gathered → x.Leads r (fun _ r' => r'.Gathered) fun _ => True

theorem noteReference_gathers (hr : r.Gathered) :
    (noteReference value).Leads r (fun _ r' => r'.Gathered) fun _ => True := by
  refine .check_bind (fun reference _ => ?_) fun _ _ => trivial
  cases reference with
  | none => exact .pure hr
  | some identifier => exact .modify (Attachments.Gathered.refer identifier hr)

theorem recordRequestHeader_gathers : Gathering (recordRequestHeader line) := fun hr =>
  .get_bind <| .check_bind (fun _ _ => .modify_bind <| .bind (noteReference_gathers hr)
    fun _ _ h => .pure h) fun _ _ => trivial

theorem closeRequestHeaders_gathers : Gathering closeRequestHeaders := by
  intro r hr
  refine .get_bind ?_
  split
  · exact .get_bind (.pure hr)
  · refine .get_bind (.check_bind (fun typeCount _ => .modify_bind ?_) fun _ _ => trivial)
    split
    · exact .get_bind (.pure hr)
    · exact .modify_bind (.pure hr)

theorem requestHeader_gathers : Gathering (requestHeader line) := by
  intro r hr
  unfold requestHeader
  split
  · exact recordRequestHeader_gathers hr
  · refine .get_bind ?_
    split
    · exact .pure hr
    · exact closeRequestHeaders_gathers hr

theorem typeHeader_gathers : Gathering (typeHeader line) := by
  intro r hr
  unfold typeHeader
  split
  · exact .get_bind <| .check_bind (fun _ _ => .modify_bind <| .bind (noteReference_gathers hr)
      fun _ _ h => .pure h) fun _ _ => trivial
  · exact .get_bind <| .check_bind (fun _ _ => .modify_bind (.get_bind (.pure hr)))
      fun _ _ => trivial

theorem resourceHeader_gathers : Gathering (resourceHeader line) := by
  intro r hr
  unfold resourceHeader
  split
  · exact .get_bind <| .check_bind (fun _ _ => .modify_bind (.pure hr)) fun _ _ => trivial
  · exact .get_bind (.pure hr)

theorem attach_gathers {resource : Resource} : Gathering (attach resource) := by
  intro r hr
  exact .get_bind <| .check_bind (fun _ hattach => .modify_bind <| .get_bind <|
    .pure (Attachments.Gathered.attach hr hattach)) fun _ _ => trivial

theorem readResourceData_gathers {suite : Suite} : Gathering (readResourceData suite) := by
  intro r hr
  refine .get_bind (.check_bind (fun _ _ => ?_) fun _ _ => trivial)
  refine .bind (.intro (fun _ r' hreceive => ?_) fun _ _ _ => trivial) fun _ _ => attach_gathers
  rwa [Gathered, receive_keeps_request.of_ok hreceive]

/-- To take a line gathers nothing. -/
theorem line_gathers {f : Bytes → Action Reading Phase} (hf : ∀ line, Gathering (f line)) :
    Gathering (nextLine >>= f) := by
  intro r hr
  have hline : Keeps request nextLine := nextLine_keeps fun _ _ => rfl
  refine .bind (.intro (fun _ r' htake => ?_) fun _ _ _ => trivial) fun line _ => hf line
  rwa [Gathered, hline.of_ok htake]

theorem advance_gathers (hr : r.Gathered) (hp : r.phase.isUnderWay)
    (h : advance gate r = .ok () r') : r'.Gathered := by
  obtain ⟨phase, r₁, hstep, h⟩ := bind_eq_ok.1 h
  cases h
  rw [step_eq] at hstep
  generalize r.phase = p at hstep hp
  have hread : Gathering (read gate p) := by
    cases p with
    | requestLine | complete | answered => cases hp
    | requestHeaders => exact line_gathers fun _ => requestHeader_gathers
    | typeHeaders => exact line_gathers fun _ => typeHeader_gathers
    | resourceHeaders => exact line_gathers fun _ => resourceHeader_gathers
    | resourceData => exact readResourceData_gathers
  exact ((hread hr).of_ok hstep :)

/-- The resources of a complete request were gathered one by one. -/
theorem gathered_of_parse (h : parse gate (.start input store) = .ok (some request) r) :
    request.attachments.Gathered := by
  obtain ⟨phase, r₁, hline, hloop, rfl⟩ := (finish_eq_ok rfl).1 (parse_eq_some.1 h)
  obtain ⟨_, line, access, _, hrequest⟩ := granted_of_readRequestLine rfl hline
  have hbegin : Gathered { r₁ with phase } := by
    rw [Gathered, hrequest]
    exact .nothing
  exact proceed_preserves (fun _ _ hr hp => advance_gathers hr hp) hbegin hloop

end Reading

end Gntp
