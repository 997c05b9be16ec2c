import Gntp.Proofs.Payloads

/-!
# Payloads that do not come

If the receiving of a payload fails before there is a payload in the clear (`Failure.withholds`),
the slot that was given for it is given back, and the store is as it was
(`Payload.receive_withdraws`): a store in memory is the same one, and on disk no file is new or
changed (`Store.Disk.Undone`) and every slot is given as it would have been (`Store.Disk.Resumes`).
Directories may have been created.
-/

namespace Gntp

open Gntp.Action

/-- Whether there is no payload in the clear: the headers announce none, lines are queued that come
first, the input ends too early, or what has come cannot be opened. -/
def Failure.withholds : Failure → Bool
  | .rejected .missingIdentifier | .rejected .missingLength => true
  | .rejected (.badLength _) | .rejected (.resourceTooLarge _) => true
  | .rejected .binaryAmongHeaders => true
  | .truncated (.insidePayload _) => true
  | .cipher _ => true
  | _ => false

namespace Slot

/-- What a slot tells about a payload: not which partial file there is for it, but that there is
one. -/
def unnumbered (slot : Slot) : Slot := { slot with
  sink := slot.sink.map fun sink => match sink with
    | .part _ => .part 0
    | .buffer content broken => .buffer content broken }

end Slot

namespace Store

namespace Disk

variable {suite : Suite} {identifier : Bytes} {d d' : Disk} {slot : Slot} {number : Nat}
  {files : Files} {serial : Nat}

/-- Nothing is left of a slot that was given last and given back: no file is new or changed. -/
structure Undone (d d' : Disk) : Prop where
  base : d'.base = d.base
  root : d'.root = d.root
  /-- The partial files that are open were open before. -/
  parts : d'.parts = d.parts
  /-- The files that there are were there before. -/
  files : ∀ path content, d'.files.contentAt? path = some content →
    d.files.contentAt? path = some content
  /-- What there was is there, unless it had the name of the partial file of one payload, and
  nothing else is there but directories on the way to this payload. -/
  nodes : ∃ identifier, ∀ path, ¬ d.partPlace identifier d.nextPart <+: path →
    d'.files.nodeAt? path = d.files.nodeAt? path ∨
      path <+: d.root ++ directories identifier ∧
        d.files.nodeAt? path = none ∧ d'.files.nodeAt? path = some .directory
  /-- In the places of payloads there is what was there before. -/
  places : ∀ identifier,
    d'.files.nodeAt? (d.place identifier) = d.files.nodeAt? (d.place identifier)
  /-- In the places of other partial files there is what was there before. -/
  partials : ∀ identifier number, number ≠ d.nextPart →
    d'.files.nodeAt? (d.partPlace identifier number) =
      d.files.nodeAt? (d.partPlace identifier number)

/-- A slot that would have been given is given, for whatever payload, unless a directory has the
name of its partial file. -/
def Resumes (suite : Suite) (d d' : Disk) : Prop :=
  ∀ identifier slot opened, acquire suite identifier d = .ok slot opened →
    d'.files.isDirectory (d'.partPlace identifier d'.nextPart) = false →
    ∃ slot' opened', acquire suite identifier d' = .ok slot' opened' ∧
      slot'.unnumbered = slot.unnumbered

theorem undone_refl (d : Disk) : Undone d d where
  base := rfl
  root := rfl
  parts := rfl
  files _ _ := id
  nodes := ⟨[], fun _ _ => .inl rfl⟩
  places _ := rfl
  partials _ _ _ := rfl

/-! ## Giving a slot -/

/-- The slot that is given for a payload that is not there. -/
def fresh (d : Disk) (identifier : Bytes) : Slot where
  identifier
  location := d.locate (namesOf (key identifier))
  sink := some (.part d.nextPart)

/-- There is a directory for the partial file of a payload, or one can be created. -/
def Reachable (d : Disk) (identifier : Bytes) : Prop :=
  d.files.nodeAt? (d.root ++ directories identifier) = some .directory ∨
    ∀ above, above <+: d.root ++ directories identifier → above ≠ [] → d.files.Passable above

theorem plain_way (hplain : d.root.Plain) (identifier : Bytes) :
    Path.Plain (d.root ++ directories identifier) :=
  List.forall_mem_append.2 ⟨hplain, plain_directories identifier⟩

theorem dropLast_partPlace (d : Disk) (identifier : Bytes) (number : Nat) :
    (d.partPlace identifier number).dropLast = d.root ++ directories identifier := by
  rw [partPlace_eq, ← List.append_assoc, List.dropLast_concat]

/-- What is created on the way to a payload stands above all payloads and partial files. -/
theorem nodeAt?_of_grown {grown : Files} {names : Path}
    (hgrown : Files.Grown (d.root ++ directories identifier) d.files grown)
    (hlength : 3 < names.length) :
    grown.nodeAt? (d.root ++ names) = d.files.nodeAt? (d.root ++ names) := by
  refine (hgrown.nodeAt? _).resolve_right ?_
  rintro ⟨habove, _, _⟩
  have hle := habove.length_le
  simp only [List.length_append, length_directories] at hle
  omega

theorem reachable_of_prepare (hplain : d.root.Plain)
    (hprepare : d.prepare (d.place identifier) = .ok d')
    (hdirectory : d'.files.nodeAt? (d.root ++ directories identifier) = some .directory) :
    d.Reachable identifier := by
  unfold prepare at hprepare
  rw [dropLast_place] at hprepare
  split at hprepare
  · cases hprepare
    exact .inl hdirectory
  · split at hprepare
    · next files hcreate =>
      exact .inr ((Files.exists_createDirectories_iff (plain_way hplain identifier)).1
        ⟨files, hcreate⟩)
    · cases hprepare

theorem Reachable.prepare (h : d.Reachable identifier) (hplain : d.root.Plain) :
    ∃ grown, d.prepare (d.place identifier) = .ok { d with files := grown } ∧
      Files.Grown (d.root ++ directories identifier) d.files grown ∧
      grown.nodeAt? (d.root ++ directories identifier) = some .directory := by
  have hway := plain_way hplain identifier
  unfold Disk.prepare
  rw [dropLast_place]
  rcases h with hdirectory | hpassable
  · rw [hdirectory]
    exact ⟨d.files, rfl, .refl _ _, hdirectory⟩
  · rcases hpassable _ List.prefix_rfl (by simp [directories]) with hdirectory | ⟨hnone, _⟩
    · rw [hdirectory]
      exact ⟨d.files, rfl, .refl _ _, hdirectory⟩
    · obtain ⟨grown, hcreate⟩ := (Files.exists_createDirectories_iff hway).2 hpassable
      rw [hnone, hcreate]
      exact ⟨grown, rfl, Files.grown_of_createDirectories hway hcreate,
        Files.directory_of_createDirectories hway hcreate⟩

theorem nodeAt?_of_acquire (hsuite : suite.digest .sha256 = some HashAlgorithm.sha256.hash)
    (hmiss : slot.cached = false) (hacquire : acquire suite identifier d = .ok slot d') :
    d.files.nodeAt? (d.place identifier) = none := by
  cases hnode : d.files.nodeAt? (d.place identifier) with
  | none => rfl
  | some node =>
    cases (acquire_hit hsuite (Option.isSome_of_eq_some hnode)).symm.trans hacquire
    cases hmiss

theorem given_of_acquire (hsuite : suite.digest .sha256 = some HashAlgorithm.sha256.hash)
    (hplain : d.root.Plain) (hnode : d.files.nodeAt? (d.place identifier) = none)
    (hacquire : acquire suite identifier d = .ok slot d') :
    slot = d.fresh identifier ∧ d.Reachable identifier ∧
      ∃ grown serial files, Files.Grown (d.root ++ directories identifier) d.files grown ∧
        grown.openEmpty? (d.partPlace identifier d.nextPart) = some (serial, files) ∧
        d' = d.giving identifier serial files := by
  rw [acquire_eq hsuite hnode] at hacquire
  cases hprepare : d.prepare (d.place identifier) with
  | error d₁ =>
    rw [hprepare] at hacquire
    cases hacquire
  | ok d₁ =>
    obtain ⟨grown, rfl, hgrown⟩ := grown_of_prepare hplain hprepare
    rw [hprepare] at hacquire
    dsimp only at hacquire
    cases hopen : grown.openEmpty? (d.partPlace identifier d.nextPart) with
    | none =>
      rw [hopen] at hacquire
      cases hacquire
    | some opened =>
      rw [hopen] at hacquire
      cases hacquire
      have hparent := (Files.openEmpty?_eq_some hopen).2.1
      rw [dropLast_partPlace] at hparent
      exact ⟨rfl, reachable_of_prepare hplain hprepare (of_decide_eq_true hparent),
        grown, opened.1, opened.2, hgrown, hopen, rfl⟩

theorem acquire_of_reachable (hsuite : suite.digest .sha256 = some HashAlgorithm.sha256.hash)
    (hplain : d.root.Plain) (hnode : d.files.nodeAt? (d.place identifier) = none)
    (hreachable : d.Reachable identifier)
    (hfree : d.files.isDirectory (d.partPlace identifier d.nextPart) = false) :
    ∃ opened, acquire suite identifier d = .ok (d.fresh identifier) opened := by
  obtain ⟨grown, hprepare, hgrown, hparent⟩ := hreachable.prepare hplain
  have hdirectory :
      grown.isDirectory (d.partPlace identifier d.nextPart).dropLast = true := by
    rw [dropLast_partPlace]
    exact decide_eq_true hparent
  have hfile : grown.nodeAt? (d.partPlace identifier d.nextPart) ≠ some .directory := by
    have hlong : 3 < (directories identifier ++
        [(key identifier).drop 6 ++ partSuffix d.nextPart]).length := Nat.lt_succ_self 3
    rw [partPlace_eq, nodeAt?_of_grown hgrown hlong, ← partPlace_eq]
    exact of_decide_eq_false hfree
  obtain ⟨serial, files, hopen⟩ := Files.exists_openEmpty? hdirectory hfile
  rw [acquire_eq hsuite hnode, hprepare]
  dsimp only
  rw [hopen]
  exact ⟨_, rfl⟩

/-! ## Giving it back -/

/-- The store when the slot that it gave last was given back. -/
def withdrawn (d : Disk) (identifier : Bytes) (files : Files) : Disk := { d with
  files := files.removeAll (d.partPlace identifier d.nextPart)
  nextPart := d.nextPart + 1 }

section

variable {grown : Files} (hsound : d.Sound)
  (hgrown : Files.Grown (d.root ++ directories identifier) d.files grown)
  (hopen : grown.openEmpty? (d.partPlace identifier d.nextPart) = some (serial, files))

include hsound hopen in
theorem abandon_giving :
    (d.giving identifier serial files).abandon (d.fresh identifier) =
      d.withdrawn identifier files := by
  have hunused : d.parts.lookup d.nextPart = none := hsound.next d.nextPart (Nat.le_refl _)
  have hpart : (d.giving identifier serial files).part? (d.fresh identifier) =
      some (d.nextPart, { target := d.place identifier
                          path := d.partPlace identifier d.nextPart, serial }) := by
    simp [part?, fresh, giving, List.lookup_append, hunused]
  have hparts : Assoc.erase d.nextPart (d.giving identifier serial files).parts = d.parts := by
    have hothers : ∀ entry ∈ d.parts, entry.1 ≠ d.nextPart := fun entry hentry heq =>
      bne_iff_ne.1 (List.lookup_eq_none_iff.1 hunused entry hentry) heq.symm
    have hkept : Assoc.erase d.nextPart d.parts = d.parts :=
      List.filter_eq_self.2 fun entry hentry => decide_eq_true (hothers entry hentry)
    have hsplit : Assoc.erase d.nextPart (d.giving identifier serial files).parts =
        Assoc.erase d.nextPart d.parts := by
      simp [giving, Assoc.erase, List.filter_append]
    rw [hsplit, hkept]
  have hfile : files.nodeAt? (d.partPlace identifier d.nextPart) = some (.file serial []) :=
    ((Files.openEmpty?_eq_some hopen).2.2.2 _).trans (if_pos rfl)
  rw [abandon_of_part hpart, hparts]
  simp [withdrawn, giving, flushed, Files.remove, hfile]

include hopen in
/-- Below the name of the partial file there is nothing any more, and elsewhere what there was. -/
theorem nodeAt?_withdrawn (other : Path) :
    (d.withdrawn identifier files).files.nodeAt? other =
      if Files.isAbove (d.partPlace identifier d.nextPart) other then none
      else grown.nodeAt? other := by
  obtain ⟨hne, _, _, hopened⟩ := Files.openEmpty?_eq_some hopen
  refine (Files.nodeAt?_removeAll hne other).trans ?_
  split
  · rfl
  · next hnot =>
    rw [hopened, if_neg]
    rintro rfl
    exact hnot (Files.isAbove_self _)

include hgrown hopen in
theorem contentAt?_of_withdrawn {path : Path} {content : Bytes}
    (h : (d.withdrawn identifier files).files.contentAt? path = some content) :
    d.files.contentAt? path = some content := by
  rw [← hgrown.contentAt? path, ← h]
  refine (Files.contentAt?_congr ?_).symm
  rw [nodeAt?_withdrawn hopen]
  split
  · next habove =>
    simp [Files.contentAt?, nodeAt?_withdrawn hopen, habove] at h
  · rfl

include hopen in
/-- Beside the partial file and above it there is what there was. -/
theorem nodeAt?_withdrawn_of_ne {names : Path} (hlength : names.length ≤ 4)
    (hne : d.root ++ names ≠ d.partPlace identifier d.nextPart) :
    (d.withdrawn identifier files).files.nodeAt? (d.root ++ names) =
      grown.nodeAt? (d.root ++ names) := by
  rw [nodeAt?_withdrawn hopen, if_neg]
  intro habove
  refine hne ((Files.isAbove_iff.1 habove).eq_of_length_le ?_).symm
  rw [partPlace_eq]
  simp only [List.length_append, length_directories, List.length_cons, List.length_nil]
  omega

end

/-- With an empty partial file taken away, there are new directories at most. -/
theorem undone_of_abandon (hsuite : suite.digest .sha256 = some HashAlgorithm.sha256.hash)
    (hsound : d.Sound) (hmiss : slot.cached = false)
    (hacquire : acquire suite identifier d = .ok slot d') : Undone d (d'.abandon slot) := by
  obtain ⟨rfl, _, grown, serial, files, hgrown, hopen, rfl⟩ :=
    given_of_acquire hsuite hsound.plain (nodeAt?_of_acquire hsuite hmiss hacquire) hacquire
  rw [abandon_giving hsound hopen]
  have hsame (names : Path) (hlength : names.length = 4)
      (hne : d.root ++ names ≠ d.partPlace identifier d.nextPart) :
      (d.withdrawn identifier files).files.nodeAt? (d.root ++ names) =
        d.files.nodeAt? (d.root ++ names) :=
    (nodeAt?_withdrawn_of_ne hopen (Nat.le_of_eq hlength) hne).trans
      (nodeAt?_of_grown hgrown (Nat.lt_of_lt_of_eq (Nat.lt_succ_self 3) hlength.symm))
  exact {
    base := rfl
    root := rfl
    parts := rfl
    files := fun path content => contentAt?_of_withdrawn hgrown hopen
    nodes := ⟨identifier, fun path hpath => by
      rw [nodeAt?_withdrawn hopen, if_neg (mt Files.isAbove_iff.1 hpath)]
      exact hgrown.nodeAt? path⟩
    places := fun other => hsame _ rfl (place_ne_partPlace d other identifier _)
    partials := fun other number hnumber => by
      rw [partPlace_eq]
      refine hsame _ rfl ?_
      rw [← partPlace_eq]
      exact fun heq => hnumber (number_of_partPlace heq) }

/-! ## Giving other slots then -/

/-- A partial file stands below all directories on the way to a payload. -/
theorem not_below_partPlace {path : Path} (hpath : path <+: d.root ++ directories identifier)
    (other : Bytes) (number : Nat) : ¬ d.partPlace other number <+: path := by
  intro hbelow
  have hle := (hbelow.trans hpath).length_le
  simp [partPlace_eq] at hle

theorem Undone.reachable (h : d.Undone d') (hreachable : d.Reachable identifier) :
    d'.Reachable identifier := by
  obtain ⟨other, hnodes⟩ := h.nodes
  replace hnodes (path : Path) (hpath : path <+: d.root ++ directories identifier) :=
    hnodes path (not_below_partPlace hpath other d.nextPart)
  unfold Reachable at hreachable ⊢
  rw [h.root]
  rcases hreachable with hdirectory | hpassable
  · refine .inl ?_
    rcases hnodes _ List.prefix_rfl with hsame | ⟨_, _, hnew⟩
    · rw [hsame, hdirectory]
    · exact hnew
  · refine .inr fun above habove hne => ?_
    rcases hnodes above habove with hsame | ⟨_, _, hnew⟩
    · rw [Files.Passable, hsame]
      exact hpassable above habove hne
    · exact .inl hnew

theorem Undone.resumes (h : d.Undone d')
    (hsuite : suite.digest .sha256 = some HashAlgorithm.sha256.hash) (hplain : d.root.Plain) :
    Resumes suite d d' := by
  intro identifier slot opened hacquire hfree
  have hplace : d'.files.nodeAt? (d'.place identifier) = d.files.nodeAt? (d.place identifier) := by
    rw [← h.places identifier, place, place, h.root]
  have hlocate (names : List Bytes) : d'.locate names = d.locate names := by
    rw [locate, locate, h.base]
  cases hnode : d.files.nodeAt? (d.place identifier) with
  | some node =>
    cases (acquire_hit hsuite (Option.isSome_of_eq_some hnode)).symm.trans hacquire
    rw [hnode] at hplace
    refine ⟨_, d', acquire_hit hsuite (Option.isSome_of_eq_some hplace), ?_⟩
    rw [hlocate]
  | none =>
    obtain ⟨rfl, hreachable, _⟩ := given_of_acquire hsuite hplain hnode hacquire
    have hplain' : d'.root.Plain := by
      rw [h.root]
      exact hplain
    obtain ⟨opened', hagain⟩ := acquire_of_reachable hsuite hplain' (hplace.trans hnode)
      (h.reachable hreachable) hfree
    refine ⟨_, opened', hagain, ?_⟩
    simp [fresh, Slot.unnumbered, hlocate]

end Disk

variable {suite : Suite} {identifier : Bytes} {store store' : Store} {slot : Slot}
  {failure : Failure}

theorem not_withholds_of_acquire (h : acquire suite identifier store = .error failure store') :
    failure.withholds = false := by
  cases store with
  | memory m => cases h
  | discard => cases h
  | disk d =>
    have hacquires := Disk.acquires suite identifier d
    cases hx : Disk.acquire suite identifier d with
    | ok slot d' => cases (acquire_disk_eq_ok.2 ⟨d', hx, rfl⟩).symm.trans h
    | error failure' d' =>
      have hdisk : acquire suite identifier (disk d) = .error failure' (disk d') := by
        simp only [acquire, hx]
      cases hdisk.symm.trans h
      rw [hx] at hacquires
      cases hacquires with
      | failed kind =>
        rcases kind with rfl | ⟨fault, rfl⟩
        · rfl
        · rfl

theorem not_withholds_of_commit (h : commit slot store = .error failure store') :
    failure.withholds = false := by
  unfold commit at h
  split at h
  · next m =>
    unfold Memory.commit at h
    split at h
    · cases h
    · next herror =>
      split at herror
      · dsimp only at herror
        split at herror <;> cases herror
      · cases herror
        cases h
        rfl
  · cases h
  · next d =>
    split at h
    · cases h
    · next herror =>
      cases h
      unfold Disk.commit at herror
      split at herror
      · cases herror
        rfl
      · split at herror
        · cases herror
          rfl
        · split at herror
          · cases herror
          · cases herror
            rfl

end Store

namespace Payload

open Inbound

variable {suite : Suite} {sealing : Sealing} {headers : Headers} {identifier : Bytes}
  {length : Nat} {slot : Slot} {r r' : Receiving} {failure : Failure}

theorem onInbound_eq_error {α : Type} {action : Action Inbound α} :
    Receiving.onInbound action r = .error failure r' ↔
      action r.inbound = .error failure r'.inbound ∧ r'.store = r.store := by
  unfold Receiving.onInbound
  obtain ⟨inbound', store'⟩ := r'
  cases action r.inbound with
  | ok a inbound => exact ⟨nofun, nofun⟩
  | error failure' inbound =>
    constructor
    · intro h
      cases h
      exact ⟨rfl, rfl⟩
    · rintro ⟨h, rfl⟩
      cases h
      rfl

theorem onStore_eq_error {α : Type} {action : Action Store α} :
    Receiving.onStore action r = .error failure r' ↔
      action r.store = .error failure r'.store ∧ r'.inbound = r.inbound := by
  unfold Receiving.onStore
  obtain ⟨inbound', store'⟩ := r'
  cases action r.store with
  | ok a store => exact ⟨nofun, nofun⟩
  | error failure' store =>
    constructor
    · intro h
      cases h
      exact ⟨rfl, rfl⟩
    · rintro ⟨h, rfl⟩
      cases h
      rfl

/-- Behind a payload that has come, nothing fails for want of it. -/
theorem not_withholds_of_takeBlankLine {i i' : Inbound}
    (h : takeBlankLine identifier i = .error failure i') : failure.withholds = false := by
  have hline (failure : Failure) (i' : Inbound) (h : takeLine i = .error failure i') :
      failure.withholds = false :=
    (takeLine_leads (E := fun failure => failure.withholds = false) rfl).of_error h
  unfold takeBlankLine at h
  split at h
  · next herror =>
    cases h
    exact hline _ _ herror
  · cases h
    rfl
  · split at h
    · cases h
      rfl
    · cases h

/-- Before it is written, a payload has no bearing on the store. -/
theorem store_of_fill (h : fill suite sealing length slot r = .error failure r') :
    r'.store = r.store := by
  rw [fill_eq] at h
  rcases bind_eq_error.1 h with htake | ⟨data, r₁, htake, hwrite⟩
  · exact (onInbound_eq_error.1 htake).2
  · have hstore := (onInbound_eq_ok.1 htake).2
    unfold write at hwrite
    split at hwrite
    · cases hwrite
      exact hstore
    · cases hwrite

/-- A slot whose payload does not come is given back. -/
theorem store_of_keep (hwithheld : failure.withholds = true)
    (h : keep suite sealing length slot r = .error failure r') :
    r'.store = if slot.cached then r.store else r.store.abandon slot := by
  unfold keep at h
  split at h
  · next hcached =>
    rw [if_pos hcached]
    split at h
    · cases h
    · next htake =>
      cases h
      exact (onInbound_eq_error.1 htake).2
  · next hmissed =>
    rw [if_neg hmissed]
    split at h
    · next hcommit =>
      have hother := Store.not_withholds_of_commit (onStore_eq_error.1 h).1
      exact absurd hwithheld (by simp [hother])
    · next hfill =>
      cases h
      exact congrArg (Store.abandon · slot) (store_of_fill hfill)

/-- Where there is no payload in the clear, a slot was given and taken back, or there was none. -/
theorem store_of_receive (hwithheld : failure.withholds = true)
    (h : receive suite sealing headers r = .error failure r') :
    r'.store = r.store ∨ ∃ identifier length slot opened,
      announced headers = .ok (identifier, length) ∧ slot.cached = false ∧
      Store.acquire suite identifier r.store = .ok slot opened ∧
      r'.store = opened.abandon slot := by
  have hnot (hother : failure.withholds = false) : False := by simp [hother] at hwithheld
  rcases bind_eq_error.1 h with hnone | ⟨⟨identifier, length⟩, r₀, hsome, hrest⟩
  · obtain ⟨_, _, _, rfl⟩ := check_eq_error.1 hnone
    exact .inl rfl
  obtain ⟨hannounced, rfl⟩ := check_eq_ok.1 hsome
  rcases bind_eq_error.1 hrest with hrefused | ⟨slot, r₁, hgiven, hrest⟩
  · exact (hnot (Store.not_withholds_of_acquire (onStore_eq_error.1 hrefused).1)).elim
  obtain ⟨hacquire, _⟩ := onStore_eq_ok.1 hgiven
  rcases bind_eq_error.1 hrest with hkeep | ⟨_, r₂, _, hrest⟩
  · have hstore := store_of_keep hwithheld hkeep
    split at hstore
    · next hcached => exact .inl (hstore.trans (Store.eq_of_acquire_cached hacquire hcached))
    · next hmissed =>
      exact .inr ⟨identifier, length, slot, r₁.store, hannounced,
        Bool.eq_false_iff.2 hmissed, hacquire, hstore⟩
  rcases bind_eq_error.1 hrest with hblank | ⟨_, r₃, _, hdone⟩
  · exact (hnot (not_withholds_of_takeBlankLine (onInbound_eq_error.1 hblank).1)).elim
  · cases hdone

/-- If there is no payload in the clear, the store is as before: in memory it has the same payloads
in the same order, and on disk nothing is left of the attempt. Without an identifier and a length
no slot is asked for. -/
theorem receive_withdraws (hsuite : suite.digest .sha256 = some HashAlgorithm.sha256.hash)
    (hsound : r.store.Sound) (hwithheld : failure.withholds = true)
    (h : receive suite sealing headers r = .error failure r') :
    (∀ m, r.store = .memory m → r'.store = .memory m) ∧
      (r.store = .discard → r'.store = .discard) ∧
      (∀ d, r.store = .disk d → ∃ d', r'.store = .disk d' ∧
        d.Undone d' ∧ d.Resumes suite d') ∧
      ∀ reason, announced headers = .error reason → r'.store = r.store := by
  rcases store_of_receive hwithheld h with
    hsame | ⟨identifier, length, slot, opened, hannounced, hmiss, hacquire, hstore⟩
  · rw [hsame]
    refine ⟨fun _ => id, id, fun d hd => ?_, fun _ _ => rfl⟩
    rw [hd] at hsound
    have hundone := Store.Disk.undone_refl d
    exact ⟨d, hd, hundone, hundone.resumes hsuite hsound.plain⟩
  · rw [hstore]
    refine ⟨fun m hm => ?_, fun hdiscard => ?_, fun d hd => ?_, fun reason hnone => ?_⟩
    · rw [hm] at hacquire
      cases hacquire
      rfl
    · rw [hdiscard] at hacquire
      cases hacquire
      rfl
    · rw [hd] at hacquire hsound
      obtain ⟨d', hdisk, rfl⟩ := Store.acquire_disk_eq_ok.1 hacquire
      have hundone := Store.Disk.undone_of_abandon hsuite hsound hmiss hdisk
      exact ⟨d'.abandon slot, rfl, hundone, hundone.resumes hsuite hsound.plain⟩
    · cases hannounced.symm.trans hnone

/-- Three bytes of eight, and a store on disk that has nothing yet. -/
def exampleCut : Receiving where
  inbound := { unread := ascii "abc" }
  store := .disk {
    base := ascii "/r"
    root := [ascii "r"]
    files := { nodes := [([ascii "r"], .directory)] } }

theorem sound_exampleCut : exampleCut.store.Sound where
  plain := by
    intro name hname
    rw [List.mem_singleton.1 hname]
    decide
  next _ _ := rfl

theorem receive_exampleCut : ∃ left, receive .full .clear exampleHeaders exampleCut =
    .error (.truncated (.insidePayload 5)) left := by
  have hcut : (match receive .full .clear exampleHeaders exampleCut with
      | .error failure _ => decide (failure = .truncated (.insidePayload 5))
      | .ok _ _ => false) = true := by
    decide +kernel
  cases hx : receive .full .clear exampleHeaders exampleCut with
  | ok resource left =>
    rw [hx] at hcut
    cases hcut
  | error failure left =>
    rw [hx] at hcut
    exact ⟨left, congrArg (EStateM.Result.error · left) (of_decide_eq_true hcut)⟩

/-- A new partial file is taken away again. -/
theorem receive_withdraws_cut : ∃ failure left d d',
    receive .full .clear exampleHeaders exampleCut = .error failure left ∧
      failure.withholds = true ∧ exampleCut.store = .disk d ∧ left.store = .disk d' ∧
      d.Undone d' ∧ d.Resumes .full d' := by
  obtain ⟨left, hcut⟩ := receive_exampleCut
  obtain ⟨_, _, hdisk, _⟩ := receive_withdraws rfl sound_exampleCut rfl hcut
  obtain ⟨d', hleft, hundone, hresumes⟩ := hdisk _ rfl
  exact ⟨_, left, _, d', hcut, rfl, rfl, hleft, hundone, hresumes⟩

end Payload

end Gntp
