import Gntp.Proofs.Placing
import Gntp.Proofs.Traffic

/-!
# What a store keeps on disk

As long as the file system does its part and no hashes collide, the files of a store on disk say what
was done at it (`Traffic.disk_of_run`): the payloads that are in place are those committed last, the
partial files are those of open slots, and a slot that is not open takes no part any more.

The files and the partial files that the store knows of stay in step with the slots that are out
(`Traffic.OnDisk`), whatever comes next.
-/

namespace Gntp

open Gntp.Action

/-- Whether a failure is due to the file system. -/
def Failure.ofFileSystem : Failure → Bool
  | .fileSystem => true
  | .store (.fileNotCreated _) => true
  | .store (.payloadNotWritten _) => true
  | .store (.payloadNotMoved ..) => true
  | _ => false

namespace Store

namespace Disk

variable {d : Disk} {files : Files} {part : PartFile} {content : Bytes} {other : Path}

/-- A store on a base directory with nothing in it. -/
structure Fresh (d : Disk) : Prop where
  plain : d.root.Plain
  bare : d.files.Bare d.root
  numbered : d.files.Numbered
  parts : d.parts = []

/-- Such is the store that is opened on a base directory if nothing is in it. -/
theorem fresh_of_prepareBase {base : Bytes} {before : Files} {root : Path}
    (hplain : ∀ path, before.workingDirectory = some path → path.Plain)
    (h : prepareBase base before = .ok root files) (hbare : files.Bare root)
    (hnumbered : files.Numbered) : Fresh { base, root, files } :=
  ⟨plain_of_prepareBase hplain h, hbare, hnumbered, rfl⟩

/-! ## Buffered bytes -/

theorem nodeAt?_flushed_self (h : files.nodeAt? part.path = some (.file part.serial content))
    (hoffset : part.offset = content.length) :
    (flushed files part).nodeAt? part.path =
      some (.file part.serial (content ++ part.buffered)) := by
  unfold flushed
  split
  · next hempty => simp [h, hempty]
  · rw [hoffset, Files.nodeAt?_append_self h]

theorem nodeAt?_flushed_of_ne (hfiles : files.Numbered)
    (h : files.nodeAt? part.path = some (.file part.serial content)) (hne : other ≠ part.path) :
    (flushed files part).nodeAt? other = files.nodeAt? other := by
  unfold flushed
  split
  · rfl
  · exact Files.nodeAt?_writeAt_of_ne hfiles h hne _ _

theorem numbered_flushed (hfiles : files.Numbered) (part : PartFile) :
    (flushed files part).Numbered := by
  unfold flushed
  split
  · exact hfiles
  · exact hfiles.writeAt _ _ _

theorem bare_flushed {path : Path} (h : files.Bare path) (part : PartFile) :
    (flushed files part).Bare path := by
  intro rest hrest
  unfold flushed
  split
  · exact h rest hrest
  · simp [Files.nodeAt?_writeAt, h rest hrest]

/-! ## Partial files of open slots -/

/-- The partial file has, or has still to get, all that was written to the slot. -/
structure Holds (d : Disk) (ticket : Ticket) (number : Nat) (part : PartFile) : Prop where
  target : part.target = d.place ticket.slot.identifier
  path : part.path = d.partPlace ticket.slot.identifier number
  whole : part.broken = false
  content : ∃ content, d.files.nodeAt? part.path = some (.file part.serial content) ∧
    part.offset = content.length ∧ content ++ part.buffered = ticket.written

/-- What is written to the slot is added to the file or held back. -/
theorem holds_write {ticket : Ticket} {number : Nat} {slot : Slot} (hfiles : d.files.Numbered)
    (hholds : d.Holds ticket number part) (hpart : d.part? slot = some (number, part))
    (data : Bytes) : ∃ files part', d.write slot data =
        { d with files, parts := Assoc.set number part' d.parts } ∧ files.Numbered ∧
      (∀ other ≠ part.path, files.nodeAt? other = d.files.nodeAt? other) ∧
      Holds { d with files, parts := Assoc.set number part' d.parts }
        { ticket with written := ticket.written ++ data } number part' := by
  obtain ⟨content, hcontent, hoffset, hwritten⟩ := hholds.content
  by_cases hheld : holdsBack part.buffered.length data.length
  · refine ⟨d.files, { part with buffered := part.buffered ++ data }, ?_, hfiles,
      fun _ _ => rfl, hholds.target, hholds.path, hholds.whole, content, hcontent, hoffset, ?_⟩
    · simp [write, hpart, hholds.whole, hheld]
    · simp [← hwritten]
  · let filled : PartFile := { part with buffered := part.buffered ++ data }
    have hfilled : d.files.nodeAt? filled.path = some (.file filled.serial content) := hcontent
    refine ⟨flushed d.files filled,
      { filled with offset := part.offset + filled.buffered.length, buffered := [] }, ?_,
      numbered_flushed hfiles filled,
      fun other hother => nodeAt?_flushed_of_ne hfiles hfilled hother,
      hholds.target, hholds.path, hholds.whole, content ++ filled.buffered, ?_, ?_, ?_⟩
    · simp [write, hpart, hholds.whole, hheld, flushPart, filled]
    · exact nodeAt?_flushed_self hfilled hoffset
    · simp [hoffset]
    · simp [← hwritten, filled]

theorem close?_of_part {slot : Slot} {number : Nat} (hpart : d.part? slot = some (number, part)) :
    d.close? slot = some (part,
      { d with files := flushed d.files part, parts := Assoc.erase number d.parts }) := by
  simp [close?, hpart]

theorem commit_of_part {slot : Slot} {number : Nat} (hpart : d.part? slot = some (number, part))
    (hwhole : part.broken = false) :
    commit slot d = match (flushed d.files part).move part.path part.target with
      | .ok files => .ok () { d with files, parts := Assoc.erase number d.parts }
      | .error fault => .error (.store (.payloadNotMoved slot.identifier fault))
        { d with files := flushed d.files part, parts := Assoc.erase number d.parts } := by
  simp only [commit, close?_of_part hpart, hwhole]
  rfl

theorem abandon_of_part {slot : Slot} {number : Nat} (hpart : d.part? slot = some (number, part)) :
    d.abandon slot = { d with
      files := (flushed d.files part).remove part.path
      parts := Assoc.erase number d.parts } := by
  simp [abandon, close?_of_part hpart]

theorem commit_of_no_part {slot : Slot} (hpart : d.part? slot = none) :
    commit slot d = .error (.store (.foreignSlot slot.identifier)) d := by
  simp [commit, close?, hpart]

theorem abandon_of_no_part {slot : Slot} (hpart : d.part? slot = none) :
    d.abandon slot = d := by
  simp [abandon, close?, hpart]

theorem write_of_no_part {slot : Slot} (hpart : d.part? slot = none) (data : Bytes) :
    d.write slot data = d := by
  simp [write, hpart]

/-! ## Giving slots -/

variable {suite : Suite} {identifier : Bytes}

theorem acquire_hit (hsuite : suite.digest .sha256 = some HashAlgorithm.sha256.hash)
    (hnode : (d.files.nodeAt? (d.place identifier)).isSome) :
    acquire suite identifier d = .ok
      { identifier, cached := true, location := d.locate (namesOf (key identifier)) } d := by
  unfold acquire
  rw [hashKey_eq hsuite]
  exact if_pos hnode

theorem grown_of_prepare {d' : Disk} (hplain : d.root.Plain)
    (h : d.prepare (d.place identifier) = .ok d') :
    ∃ grown, d' = { d with files := grown } ∧
      Files.Grown (d.root ++ directories identifier) d.files grown := by
  unfold prepare at h
  rw [dropLast_place] at h
  split at h
  · cases h
    exact ⟨_, rfl, .refl _ _⟩
  · split at h
    · next grown hcreate =>
      cases h
      refine ⟨grown, rfl, Files.grown_of_createDirectories ?_ hcreate⟩
      exact List.forall_mem_append.2 ⟨hplain, plain_directories identifier⟩
    · cases h

/-- The store when it has given a slot whose partial file has this serial number. -/
def giving (d : Disk) (identifier : Bytes) (serial : Nat) (files : Files) : Disk := { d with
  files
  nextPart := d.nextPart + 1
  parts := d.parts ++ [(d.nextPart,
    { target := d.place identifier, path := d.partPlace identifier d.nextPart, serial })] }

theorem lookup_giving_of_ne {number serial : Nat} (hne : number ≠ d.nextPart) :
    (d.giving identifier serial files).parts.lookup number = d.parts.lookup number := by
  simp [giving, List.lookup_append, List.lookup_cons, beq_false_of_ne hne]

/-- A slot of its own is opened for a payload that is not there. -/
theorem acquire_eq (hsuite : suite.digest .sha256 = some HashAlgorithm.sha256.hash)
    (hnode : d.files.nodeAt? (d.place identifier) = none) :
    acquire suite identifier d = match d.prepare (d.place identifier) with
      | .error d' => .error .fileSystem d'
      | .ok d' => match d'.files.openEmpty? (d.partPlace identifier d'.nextPart) with
        | none => .error (.store (.fileNotCreated
            (d.locate (namesOf (key identifier)) ++ partSuffix d'.nextPart)))
            { d' with nextPart := d'.nextPart + 1 }
        | some (serial, files) =>
          .ok { identifier, location := d.locate (namesOf (key identifier))
                sink := some (.part d'.nextPart) } { d' with
            files
            nextPart := d'.nextPart + 1
            parts := d'.parts ++ [(d'.nextPart,
              { target := d.place identifier, path := d.partPlace identifier d'.nextPart
                serial })] } := by
  have hnot : ¬(d.files.nodeAt? (d.root ++ namesOf (key identifier))).isSome = true := by
    simpa [place] using hnode
  unfold acquire
  rw [hashKey_eq hsuite]
  exact if_neg hnot

/-- A slot that is given on a miss has a new partial file, below directories that may be new too. -/
theorem acquire_miss (hsuite : suite.digest .sha256 = some HashAlgorithm.sha256.hash)
    (hplain : d.root.Plain) (hnode : d.files.nodeAt? (d.place identifier) = none) :
    (∃ failure d', acquire suite identifier d = .error failure d' ∧
      failure.ofFileSystem = true) ∨
    ∃ location grown serial files, Files.Grown (d.root ++ directories identifier) d.files grown ∧
      grown.openEmpty? (d.partPlace identifier d.nextPart) = some (serial, files) ∧
      acquire suite identifier d =
        .ok { identifier, location, sink := some (.part d.nextPart) }
          (d.giving identifier serial files) := by
  rw [acquire_eq hsuite hnode]
  cases hprepare : d.prepare (d.place identifier) with
  | error d' => exact .inl ⟨_, _, rfl, rfl⟩
  | ok d' =>
    obtain ⟨grown, rfl, hgrown⟩ := grown_of_prepare hplain hprepare
    dsimp only
    cases hopen : grown.openEmpty? (d.partPlace identifier d.nextPart) with
    | none => exact .inl ⟨_, _, rfl, rfl⟩
    | some opened => exact .inr ⟨_, grown, opened.1, opened.2, hgrown, hopen, rfl⟩

/-! ## What the store knows of its slots -/

/-- The store knows the number of the slot's partial file, and the file as long as the slot is
open. -/
structure Tracks (used : Set Bytes) (d : Disk) (ticket : Ticket) (number : Nat) : Prop where
  issued : number < d.nextPart
  used : ticket.slot.identifier ∈ used
  settled : ticket.settled = true → d.parts.lookup number = none
  pending : ticket.settled = false →
    ∃ part, d.parts.lookup number = some part ∧ d.Holds ticket number part

/-- It goes on doing so if something is done to other partial files. -/
theorem Tracks.frame {used : Set Bytes} {d' : Disk} {ticket : Ticket} {number : Nat}
    (h : d.Tracks used ticket number) (hroot : d'.root = d.root) (hnext : d.nextPart ≤ d'.nextPart)
    (hparts : d'.parts.lookup number = d.parts.lookup number)
    (hfile : ∀ node, d.files.nodeAt? (d.partPlace ticket.slot.identifier number) = some node →
      d'.files.nodeAt? (d.partPlace ticket.slot.identifier number) = some node) :
    d'.Tracks used ticket number where
  issued := Nat.lt_of_lt_of_le h.issued hnext
  used := h.used
  settled hsettled := hparts.trans (h.settled hsettled)
  pending hpending := by
    obtain ⟨part, hpart, hholds⟩ := h.pending hpending
    obtain ⟨content, hcontent, hwritten⟩ := hholds.content
    refine ⟨part, hparts.trans hpart, ?_, ?_, hholds.whole, content, ?_, hwritten⟩
    · rw [hholds.target, place, place, hroot]
    · rw [hholds.path, partPlace, partPlace, place, place, hroot]
    · rw [hholds.path] at hcontent ⊢
      exact hfile _ hcontent

end Disk

namespace Traffic

variable {suite : Suite} {t : Traffic} {d : Disk} {root : Path} {used : Set Bytes}
  {n k number : Nat} {f : Ticket → Ticket} {new : Ticket}

/-- The slot was given with a partial file, and was neither committed nor abandoned. -/
def Open (t : Traffic) (n number : Nat) : Prop :=
  (t.ticket n).slot.sink = some (.part number) ∧ (t.ticket n).settled = false

/-- No move fails because of the file system. -/
def smooth (suite : Suite) (t : Traffic) : List Move → Bool
  | [] => true
  | move :: moves =>
    (match perform suite move t with
      | .ok _ _ => true
      | .error failure _ => !failure.ofFileSystem) &&
    smooth suite ((perform suite move).final t) moves

theorem lt_length_of_part (h : (t.ticket n).slot.sink = some (.part number)) :
    n < t.tickets.length := by
  rcases Nat.lt_or_ge n t.tickets.length with hlt | hge
  · exact hlt
  · simp [ticket_of_length_le hge] at h

theorem number_of_sink {number' : Nat} (h : (t.ticket n).slot.sink = some (.part number'))
    (h' : (t.ticket n).slot.sink = some (.part number)) : number' = number := by
  simpa using h.symm.trans h'

/-- Traffic at a store on disk. -/
structure OnDisk (root : Path) (used : Set Bytes) (t : Traffic) (d : Disk) : Prop where
  store : t.store = .disk d
  root : d.root = root
  plain : d.root.Plain
  numbered : d.files.Numbered
  /-- Directories end above the payloads. -/
  shallow : ∀ rest, d.files.nodeAt? (d.root ++ rest) = some .directory → rest.length < 4
  committed : ∀ identifier ∈ used,
    d.files.contentAt? (d.place identifier) = t.commits.lookup identifier
  /-- There are no other files. -/
  files : ∀ rest ≠ [], (d.files.contentAt? (d.root ++ rest)).isSome →
    (∃ identifier ∈ used, d.root ++ rest = d.place identifier) ∨
    ∃ n number, t.Open n number ∧
      d.root ++ rest = d.partPlace (t.ticket n).slot.identifier number
  tracks : ∀ n number, (t.ticket n).slot.sink = some (.part number) →
    d.Tracks used (t.ticket n) number
  unique : ∀ n k number, (t.ticket n).slot.sink = some (.part number) →
    (t.ticket k).slot.sink = some (.part number) → n = k
  next : ∀ number, d.nextPart ≤ number → d.parts.lookup number = none

theorem onDisk_fresh (h : d.Fresh) : OnDisk d.root used { store := .disk d } d where
  store := rfl
  root := rfl
  plain := h.plain
  numbered := h.numbered
  shallow rest hrest := by
    by_cases hempty : rest = []
    · simp [hempty]
    · simp [h.bare rest hempty] at hrest
  committed identifier _ := by
    have hnone : d.files.nodeAt? (d.place identifier) = none := h.bare _ (by simp [Disk.namesOf])
    simp [Files.contentAt?, hnone]
  files rest hrest hcontent := by simp [Files.contentAt?, h.bare rest hrest] at hcontent
  tracks n number hsink := by simp [ticket] at hsink
  unique n k number hsink := by simp [ticket] at hsink
  next number _ := by simp [h.parts]

namespace OnDisk

theorem length_of_content (h : OnDisk root used t d) {rest : Path} (hrest : rest ≠ [])
    (hcontent : (d.files.contentAt? (d.root ++ rest)).isSome) : rest.length = 4 := by
  rcases h.files rest hrest hcontent with ⟨identifier, _, hplace⟩ | ⟨n, number, _, hplace⟩
  · rw [Disk.place_eq] at hplace
    simp [List.append_cancel_left hplace]
  · rw [Disk.partPlace_eq] at hplace
    simp [List.append_cancel_left hplace]

/-- Nothing stands below a payload. -/
theorem bare (h : OnDisk root used t d) {names : Path} (hnames : names.length = 4) :
    d.files.Bare (d.root ++ names) := by
  intro rest hrest
  have hlong : 4 < (names ++ rest).length := by
    have hpos := List.length_pos_iff.2 hrest
    simp only [List.length_append]
    omega
  rw [List.append_assoc]
  cases hnode : d.files.nodeAt? (d.root ++ (names ++ rest)) with
  | none => rfl
  | some node =>
    cases node with
    | directory =>
      have hlt := h.shallow _ hnode
      omega
    | file serial content =>
      have hne : names ++ rest ≠ [] := List.append_ne_nil_of_right_ne_nil names hrest
      have heq := h.length_of_content hne (by simp [Files.contentAt?_of_file hnode])
      omega

theorem bare_place (h : OnDisk root used t d) (identifier : Bytes) :
    d.files.Bare (d.place identifier) := h.bare rfl

theorem bare_partPlace (h : OnDisk root used t d) (identifier : Bytes) (number : Nat) :
    d.files.Bare (d.partPlace identifier number) := by
  rw [Disk.partPlace_eq]
  exact h.bare (by simp)

theorem not_directory (h : OnDisk root used t d) {names : Path} (hnames : names.length = 4) :
    d.files.nodeAt? (d.root ++ names) ≠ some .directory := by
  intro hnode
  have hlt := h.shallow _ hnode
  omega

theorem isSome_place (h : OnDisk root used t d) (identifier : Bytes) :
    (d.files.nodeAt? (d.place identifier)).isSome =
      (d.files.contentAt? (d.place identifier)).isSome := by
  cases hnode : d.files.nodeAt? (d.place identifier) with
  | none => simp [Files.contentAt?, hnode]
  | some node =>
    cases node with
    | directory => exact absurd hnode (h.not_directory rfl)
    | file serial content => simp [Files.contentAt?, hnode]

/-- A slot that is not open has no partial file that the store knows of. -/
theorem part?_of_not_open (h : OnDisk root used t d) (hclosed : ∀ number, ¬ t.Open n number) :
    d.part? (t.ticket n).slot = none := by
  unfold Disk.part?
  split
  · next number hsink =>
    have hsettled : (t.ticket n).settled = true := by
      simpa [Open, hsink] using hclosed number
    simp [(h.tracks n number hsink).settled hsettled]
  · rfl

theorem part?_of_open (h : OnDisk root used t d) (hopen : t.Open n number) :
    ∃ part, d.part? (t.ticket n).slot = some (number, part) ∧
      d.Holds (t.ticket n) number part := by
  obtain ⟨part, hpart, hholds⟩ := (h.tracks n number hopen.1).pending hopen.2
  exact ⟨part, by simp [Disk.part?, hopen.1, hpart], hholds⟩

/-! ## Changing one slot -/

variable {t' : Traffic} {files : Files} {parts : List (Nat × PartFile)}

/-- Whose partial file is whose stays as clear as it was. -/
theorem unique_of_others (h : OnDisk root used t d) (hothers : ∀ k ≠ n, t'.ticket k = t.ticket k)
    (hsink : ∀ number, (t'.ticket n).slot.sink = some (.part number) →
      (t.ticket n).slot.sink = some (.part number)) (k k' number : Nat)
    (hk : (t'.ticket k).slot.sink = some (.part number))
    (hk' : (t'.ticket k').slot.sink = some (.part number)) : k = k' := by
  have hold : ∀ k, (t'.ticket k).slot.sink = some (.part number) →
      (t.ticket k).slot.sink = some (.part number) := by
    intro k hk
    by_cases hne : k = n
    · subst hne
      exact hsink number hk
    · rwa [hothers k hne] at hk
  exact h.unique k k' number (hold k hk) (hold k' hk')

/-- A slot that is not open and does not become so is of no concern to the store. -/
theorem disregard (h : OnDisk root used t d) (hstore : t'.store = t.store)
    (hcommits : t'.commits = t.commits) (hothers : ∀ k ≠ n, t'.ticket k = t.ticket k)
    (hclosed : ∀ number, ¬ t.Open n number)
    (hslot : ∀ number, (t'.ticket n).slot.sink = some (.part number) →
      (t'.ticket n).slot = (t.ticket n).slot ∧
        ((t.ticket n).settled = true → (t'.ticket n).settled = true)) :
    OnDisk root used t' d := by
  refine { h with
    store := hstore.trans h.store
    committed := fun identifier hused => hcommits ▸ h.committed identifier hused
    files := fun rest hrest hcontent => ?_
    tracks := fun k number hk => ?_
    unique := h.unique_of_others hothers fun number hk => (hslot number hk).1 ▸ hk }
  · refine (h.files rest hrest hcontent).imp_right fun ⟨k, number, hopen, hplace⟩ => ?_
    have hne : k ≠ n := by
      rintro rfl
      exact hclosed number hopen
    exact ⟨k, number, by rwa [Open, hothers k hne], by rwa [hothers k hne]⟩
  · by_cases hne : k = n
    · subst hne
      obtain ⟨hsame, hsettled⟩ := hslot number hk
      rw [hsame] at hk
      have htracks := h.tracks k number hk
      have hdone : (t.ticket k).settled = true := by simpa [Open, hk] using hclosed number
      refine ⟨htracks.issued, hsame ▸ htracks.used, fun _ => htracks.settled hdone, ?_⟩
      intro hpending
      simp [hsettled hdone] at hpending
    · rw [hothers k hne] at hk ⊢
      exact h.tracks k number hk

/-- The other slots do not notice what is done to the partial file of one. -/
theorem tracks_of_others (h : OnDisk root used t d) (hopen : t.Open n number) {k number' : Nat}
    (hk : k ≠ n) (hsink : (t.ticket k).slot.sink = some (.part number'))
    (hparts : ∀ number' ≠ number, parts.lookup number' = d.parts.lookup number')
    (hfiles : ∀ other ≠ d.partPlace (t.ticket n).slot.identifier number,
      (∀ identifier ∈ used, other ≠ d.place identifier) →
      files.nodeAt? other = d.files.nodeAt? other) :
    Disk.Tracks used { d with files, parts } (t.ticket k) number' := by
  have hnumber : number' ≠ number := by
    rintro rfl
    exact hk (h.unique k n number' hsink hopen.1)
  refine (h.tracks k number' hsink).frame rfl (Nat.le_refl _) (hparts number' hnumber) ?_
  intro node hnode
  rw [← hnode]
  exact hfiles _ (fun heq => hnumber (Disk.number_of_partPlace heq))
    fun identifier _ => (Disk.place_ne_partPlace d identifier _ _).symm

/-- Something is written to the partial file of an open slot, which stays open. -/
theorem refill (h : OnDisk root used t d) (hopen : t.Open n number) {part : PartFile}
    (hstore : t'.store = .disk { d with files, parts := Assoc.set number part d.parts })
    (hcommits : t'.commits = t.commits) (hothers : ∀ k ≠ n, t'.ticket k = t.ticket k)
    (hslot : (t'.ticket n).slot = (t.ticket n).slot) (hpending : (t'.ticket n).settled = false)
    (hnumbered : files.Numbered)
    (hfiles : ∀ other ≠ d.partPlace (t.ticket n).slot.identifier number,
      files.nodeAt? other = d.files.nodeAt? other)
    (hholds : Disk.Holds { d with files, parts := Assoc.set number part d.parts } (t'.ticket n)
      number part) :
    OnDisk root used t' { d with files, parts := Assoc.set number part d.parts } := by
  have hopen' : t'.Open n number := ⟨hslot ▸ hopen.1, hpending⟩
  have hfile := hholds.content
  rw [hholds.path, hslot] at hfile
  exact {
    store := hstore
    root := h.root
    plain := h.plain
    numbered := hnumbered
    shallow := fun rest hrest => by
      by_cases hplace : d.root ++ rest = d.partPlace (t.ticket n).slot.identifier number
      · obtain ⟨content, hcontent, _⟩ := hfile
        rw [hplace] at hrest
        exact nomatch hrest.symm.trans hcontent
      · rw [hfiles _ hplace] at hrest
        exact h.shallow rest hrest
    committed := fun identifier hused => by
      rw [hcommits, ← h.committed identifier hused]
      exact Files.contentAt?_congr (hfiles _ (Disk.place_ne_partPlace d _ _ _))
    files := fun rest hrest hcontent => by
      by_cases hplace : d.root ++ rest = d.partPlace (t.ticket n).slot.identifier number
      · exact .inr ⟨n, number, hopen', by rwa [hslot]⟩
      · rw [Files.contentAt?_congr (hfiles _ hplace)] at hcontent
        refine (h.files rest hrest hcontent).imp_right fun ⟨k, number', hk, hplace'⟩ => ?_
        have hne : k ≠ n := by
          rintro rfl
          exact hplace (number_of_sink hk.1 hopen.1 ▸ hplace')
        exact ⟨k, number', by rwa [Open, hothers k hne], by rwa [hothers k hne]⟩
    tracks := fun k number' hk => by
      by_cases hne : k = n
      · subst hne
        obtain rfl := number_of_sink hk hopen'.1
        have htracks := h.tracks k number' hopen.1
        exact ⟨htracks.issued, hslot ▸ htracks.used, fun hsettled => by simp [hpending] at hsettled,
          fun _ => ⟨part, Assoc.lookup_set_self _ _ _, hholds⟩⟩
      · rw [hothers k hne] at hk ⊢
        exact h.tracks_of_others hopen hne hk (fun _ hnumber => Assoc.lookup_set_of_ne hnumber _ _)
          fun other hother _ => hfiles other hother
    unique := h.unique_of_others hothers fun _ hk => hslot ▸ hk
    next := fun number' hnext => by
      have hissued := (h.tracks n number hopen.1).issued
      rw [Assoc.lookup_set_of_ne (by simp only at hnext; omega)]
      exact h.next number' hnext }

/-- The partial file of an open slot is gone, and a payload may be in place now. -/
theorem close (h : OnDisk root used t d) (hopen : t.Open n number)
    (hstore : t'.store = .disk { d with files, parts := Assoc.erase number d.parts })
    (hothers : ∀ k ≠ n, t'.ticket k = t.ticket k) (hslot : (t'.ticket n).slot = (t.ticket n).slot)
    (hsettled : (t'.ticket n).settled = true) (hnumbered : files.Numbered)
    (hgone : files.nodeAt? (d.partPlace (t.ticket n).slot.identifier number) = none)
    (hplaces : ∀ identifier ∈ used, files.nodeAt? (d.place identifier) ≠ some .directory ∧
      files.contentAt? (d.place identifier) = t'.commits.lookup identifier)
    (hfiles : ∀ other ≠ d.partPlace (t.ticket n).slot.identifier number,
      (∀ identifier ∈ used, other ≠ d.place identifier) →
      files.nodeAt? other = d.files.nodeAt? other) :
    OnDisk root used t' { d with files, parts := Assoc.erase number d.parts } := by
  exact {
    store := hstore
    root := h.root
    plain := h.plain
    numbered := hnumbered
    shallow := fun rest hrest => by
      by_cases hpart : d.root ++ rest = d.partPlace (t.ticket n).slot.identifier number
      · simp [hpart, hgone] at hrest
      · by_cases hplace : ∃ identifier ∈ used, d.root ++ rest = d.place identifier
        · obtain ⟨identifier, hused, heq⟩ := hplace
          exact absurd (heq ▸ hrest) (hplaces identifier hused).1
        · simp only [not_exists, not_and] at hplace
          exact h.shallow rest (hfiles _ hpart hplace ▸ hrest)
    committed := fun identifier hused => (hplaces identifier hused).2
    files := fun rest hrest hcontent => by
      by_cases hplace : ∃ identifier ∈ used, d.root ++ rest = d.place identifier
      · exact .inl hplace
      · by_cases hpart : d.root ++ rest = d.partPlace (t.ticket n).slot.identifier number
        · simp [Files.contentAt?, hpart, hgone] at hcontent
        · simp only [not_exists, not_and] at hplace
          rw [Files.contentAt?_congr (hfiles _ hpart hplace)] at hcontent
          rcases h.files rest hrest hcontent with ⟨identifier, hused, heq⟩ | ⟨k, number', hk, heq⟩
          · exact absurd heq (hplace identifier hused)
          · have hne : k ≠ n := by
              rintro rfl
              exact hpart (number_of_sink hk.1 hopen.1 ▸ heq)
            exact .inr ⟨k, number', by rwa [Open, hothers k hne], by rwa [hothers k hne]⟩
    tracks := fun k number' hk => by
      by_cases hne : k = n
      · subst hne
        rw [hslot] at hk
        obtain rfl := number_of_sink hk hopen.1
        have htracks := h.tracks k number' hopen.1
        exact ⟨htracks.issued, hslot ▸ htracks.used, fun _ => Assoc.lookup_erase_self _ _,
          fun hpending => by simp [hsettled] at hpending⟩
      · rw [hothers k hne] at hk ⊢
        exact h.tracks_of_others hopen hne hk (fun _ hnumber => Assoc.lookup_erase_of_ne hnumber _)
          hfiles
    unique := h.unique_of_others hothers fun _ hk => hslot ▸ hk
    next := fun number' hnext => by
      by_cases hnumber : number' = number
      · rw [hnumber]
        exact Assoc.lookup_erase_self _ _
      · rw [Assoc.lookup_erase_of_ne hnumber]
        exact h.next number' hnext }

/-! ## Giving a slot with a partial file -/

variable {identifier location : Bytes} {grown : Files} {serial : Nat}

/-- Nothing stands where the next partial file will be. -/
theorem nodeAt?_next (h : OnDisk root used t d) (identifier : Bytes) :
    d.files.nodeAt? (d.partPlace identifier d.nextPart) = none := by
  cases hnode : d.files.nodeAt? (d.partPlace identifier d.nextPart) with
  | none => rfl
  | some node =>
    cases node with
    | directory =>
      rw [Disk.partPlace_eq] at hnode
      exact absurd hnode (h.not_directory (by simp))
    | file serial content =>
      have hcontent := congrArg Option.isSome (Files.contentAt?_of_file hnode)
      rw [Disk.partPlace_eq] at hcontent
      rcases h.files _ (by simp) hcontent with ⟨other, _, hplace⟩ | ⟨k, number, hopen, hplace⟩
      · rw [← Disk.partPlace_eq] at hplace
        exact absurd hplace.symm (Disk.place_ne_partPlace d _ _ _)
      · rw [← Disk.partPlace_eq] at hplace
        have hissued := (h.tracks k number hopen.1).issued
        have hnumber := Disk.number_of_partPlace hplace
        omega

/-- What stands where after a partial file was opened. -/
theorem nodeAt?_opened (h : OnDisk root used t d)
    (hgrown : Files.Grown (d.root ++ Disk.directories identifier) d.files grown)
    (hopen : grown.openEmpty? (d.partPlace identifier d.nextPart) = some (serial, files)) :
    grown.nodeAt? (d.partPlace identifier d.nextPart) = none ∧ ∀ other, files.nodeAt? other =
      if other = d.partPlace identifier d.nextPart then some (.file serial [])
      else grown.nodeAt? other := by
  have hnone : grown.nodeAt? (d.partPlace identifier d.nextPart) = none := by
    rcases hgrown.nodeAt? (d.partPlace identifier d.nextPart) with hsame | ⟨habove, _, _⟩
    · rw [hsame, h.nodeAt?_next]
    · have hlength := habove.length_le
      rw [Disk.partPlace_eq] at hlength
      simp at hlength
  exact ⟨hnone, (Files.openEmpty?_new hnone hopen).2.2⟩

section

variable (h : OnDisk root used t d)
  (hgrown : Files.Grown (d.root ++ Disk.directories identifier) d.files grown)
  (hopen : grown.openEmpty? (d.partPlace identifier d.nextPart) = some (serial, files))
include h hgrown hopen

/-- Elsewhere there are the files that there were, and perhaps new directories. -/
theorem contentAt?_opened {other : Path} (hother : other ≠ d.partPlace identifier d.nextPart) :
    files.contentAt? other = d.files.contentAt? other := by
  rw [← hgrown.contentAt? other]
  refine Files.contentAt?_congr ?_
  rw [(h.nodeAt?_opened hgrown hopen).2, if_neg hother]

/-- What stood elsewhere stands there still. -/
theorem nodeAt?_opened_of_some {other : Path} (hother : other ≠ d.partPlace identifier d.nextPart)
    {node : Node} (hnode : d.files.nodeAt? other = some node) :
    files.nodeAt? other = some node := by
  rw [(h.nodeAt?_opened hgrown hopen).2, if_neg hother]
  rcases hgrown.nodeAt? other with hsame | ⟨_, hnone, _⟩
  · rwa [hsame]
  · simp [hnone] at hnode

/-- The new directories are those above the payload. -/
theorem shallow_opened {rest : Path} (hrest : files.nodeAt? (d.root ++ rest) = some .directory) :
    rest.length < 4 := by
  rw [(h.nodeAt?_opened hgrown hopen).2] at hrest
  split at hrest
  · cases hrest
  · rcases hgrown.nodeAt? (d.root ++ rest) with hsame | ⟨habove, _, _⟩
    · exact h.shallow rest (hsame ▸ hrest)
    · have hlength := habove.length_le
      simp at hlength
      omega

/-- The store knows of the slots that were given earlier what it knew. -/
theorem tracks_giving (hk : (t.ticket k).slot.sink = some (.part number)) :
    (d.giving identifier serial files).Tracks used (t.ticket k) number := by
  have hissued := (h.tracks k number hk).issued
  have hne : number ≠ d.nextPart := Nat.ne_of_lt hissued
  refine (h.tracks k number hk).frame rfl (Nat.le_succ _) (Disk.lookup_giving_of_ne hne) ?_
  intro node hnode
  exact h.nodeAt?_opened_of_some hgrown hopen (fun heq => hne (Disk.number_of_partPlace heq)) hnode

/-- The store knows of the slot that it gives that nothing was written to it. -/
theorem tracks_given (hused : identifier ∈ used) :
    (d.giving identifier serial files).Tracks used
      { slot := { identifier, location, sink := some (.part d.nextPart) } } d.nextPart where
  issued := Nat.lt_succ_self _
  used := hused
  settled := nofun
  pending _ := by
    refine ⟨{ target := d.place identifier, path := d.partPlace identifier d.nextPart, serial },
      ?_, rfl, rfl, rfl, [], ?_, rfl, rfl⟩
    · simp [Disk.giving, List.lookup_append, h.next d.nextPart (Nat.le_refl _)]
    · exact ((h.nodeAt?_opened hgrown hopen).2 _).trans (if_pos rfl)

/-- A slot with a new partial file is given. -/
theorem issue (hused : identifier ∈ used) :
    OnDisk root used ({ t with store := .disk (d.giving identifier serial files) }.add
      { slot := { identifier, location, sink := some (.part d.nextPart) } })
      (d.giving identifier serial files) := by
  obtain ⟨hnone, hnode⟩ := h.nodeAt?_opened hgrown hopen
  generalize ht' : Traffic.add _ _ = t'
  have hself : t'.ticket t.tickets.length =
      { slot := { identifier, location, sink := some (.part d.nextPart) } } :=
    ht' ▸ ticket_add_self (t := { t with store := _ })
  have hcases (k : Nat) : t'.ticket k = t.ticket k ∨ k = t.tickets.length ∧ t'.ticket k =
      { slot := { identifier, location, sink := some (.part d.nextPart) } } :=
    ht' ▸ ticket_add_cases (t := { t with store := _ })
  -- A slot with a partial file is the new one, or it is as it was and its number is another one.
  have hsink {k number : Nat} (hk : (t'.ticket k).slot.sink = some (.part number)) :
      k = t.tickets.length ∧ number = d.nextPart ∨ number ≠ d.nextPart ∧
        (t.ticket k).slot.sink = some (.part number) ∧ t'.ticket k = t.ticket k := by
    rcases hcases k with hsame | ⟨hlast, hnew⟩
    · rw [hsame] at hk
      exact .inr ⟨Nat.ne_of_lt (h.tracks k number hk).issued, hk, hsame⟩
    · rw [hnew] at hk
      exact .inl ⟨hlast, by simpa using hk.symm⟩
  have hold {k number : Nat} (hk : (t.ticket k).slot.sink = some (.part number)) :
      t'.ticket k = t.ticket k := by
    refine (hcases k).resolve_right fun ⟨hlast, _⟩ => ?_
    exact Nat.ne_of_lt (lt_length_of_part hk) hlast
  exact {
    store := ht' ▸ rfl
    root := h.root
    plain := h.plain
    numbered := (hgrown.numbered h.numbered).openEmpty? hnone hopen
    shallow := fun rest => h.shallow_opened hgrown hopen
    committed := fun other hother => by
      rw [← ht']
      have hplace := Disk.place_ne_partPlace d other identifier d.nextPart
      exact (h.contentAt?_opened hgrown hopen hplace).trans (h.committed other hother)
    files := fun rest hrest hfile => by
      by_cases hplace : d.root ++ rest = d.partPlace identifier d.nextPart
      · refine .inr ⟨t.tickets.length, d.nextPart, ?_, ?_⟩
        · simp [Open, hself]
        · rw [hself]
          exact hplace
      · have hkept : (d.files.contentAt? (d.root ++ rest)).isSome := by
          rw [← h.contentAt?_opened hgrown hopen hplace]
          exact hfile
        refine (h.files rest hrest hkept).imp_right fun ⟨k, number, hk, hplace⟩ => ?_
        exact ⟨k, number, by rwa [Open, hold hk.1], by rwa [hold hk.1]⟩
    tracks := fun k number hk => by
      rcases hsink hk with ⟨rfl, rfl⟩ | ⟨_, hk, hsame⟩
      · rw [hself]
        exact h.tracks_given hgrown hopen hused
      · rw [hsame]
        exact h.tracks_giving hgrown hopen hk
    unique := fun k k' number hk hk' => by
      rcases hsink hk with ⟨rfl, hnumber⟩ | ⟨hne, hk, _⟩ <;>
        rcases hsink hk' with ⟨rfl, hnumber'⟩ | ⟨hne', hk', _⟩
      · rfl
      · exact absurd hnumber hne'
      · exact absurd hnumber' hne
      · exact h.unique k k' number hk hk'
    next := fun number hnumber => by
      have hlt : d.nextPart < number := hnumber
      rw [Disk.lookup_giving_of_ne (Nat.ne_of_gt hlt)]
      exact h.next number (Nat.le_of_lt hlt) }

end

/-! ## Moves -/

/-- A move at a slot that is not open, which may say something new about the slot but not which
partial file it has. -/
theorem amend (h : OnDisk root used t d) (hclosed : ∀ number, ¬ t.Open n number)
    (hslot : ∀ number, (f (t.ticket n)).slot.sink = some (.part number) →
      (f (t.ticket n)).slot = (t.ticket n).slot)
    (hsettled : (t.ticket n).settled = true → (f (t.ticket n)).settled = true) :
    OnDisk root used (t.amend n f) d := by
  refine h.disregard (n := n) rfl rfl (fun k => ticket_amend_of_ne) hclosed fun number hsink => ?_
  rcases ticket_amend_cases (t := t) (n := n) (f := f) (k := n) with hsame | ⟨_, hnew⟩
  · rw [hsame]
    exact ⟨rfl, id⟩
  · rw [hnew] at hsink ⊢
    exact ⟨hslot number hsink, hsettled⟩

/-- A slot that has no partial file comes in. -/
theorem add (h : OnDisk root used t d) (hnew : ∀ number, new.slot.sink ≠ some (.part number)) :
    OnDisk root used (t.add new) d := by
  refine h.disregard (n := t.tickets.length) rfl rfl (fun k => ticket_add_of_ne) ?_ ?_
  · intro number hopen
    exact absurd (lt_length_of_part hopen.1) (Nat.lt_irrefl _)
  · intro number hsink
    rw [ticket_add_self] at hsink
    exact absurd hsink (hnew number)

theorem bring (h : OnDisk root used t d) (identifier : Bytes) (buffered : Bool) :
    OnDisk root used ((perform suite (.bring identifier buffered)).final t) d := by
  have hadded : OnDisk root used (t.add { slot := handmade identifier buffered }) d :=
    h.add fun number => by cases buffered <;> exact nofun
  exact hadded

theorem final_write (h : t.store = .disk d) (n : Nat) (data : Bytes) :
    (perform suite (.write n data)).final t =
      { t with store := .disk (d.write (t.ticket n).slot data) }.amend n fun ticket =>
        { ticket with
          slot := (t.ticket n).slot.write data
          written := ticket.written ++ data } := by
  obtain ⟨store, tickets, commits⟩ := t
  cases h
  rfl

theorem write (h : OnDisk root used t d) (n : Nat) (data : Bytes) :
    ∃ d', OnDisk root used ((perform suite (.write n data)).final t) d' := by
  rw [final_write h.store]
  by_cases hopen : ∃ number, t.Open n number
  · obtain ⟨number, hopen⟩ := hopen
    obtain ⟨part, hpart, hholds⟩ := h.part?_of_open hopen
    obtain ⟨files, part', hwrite, hnumbered, hothers, hholds'⟩ :=
      Disk.holds_write h.numbered hholds hpart data
    have hslot : (t.ticket n).slot.write data = (t.ticket n).slot := by
      simp [Slot.write, hopen.1]
    rw [hwrite, hslot]
    have hself : ∀ {store}, ({ t with store }.amend n fun ticket =>
        { ticket with
          slot := (t.ticket n).slot
          written := ticket.written ++ data }).ticket n =
        { t.ticket n with written := (t.ticket n).written ++ data } := fun {store} =>
      ticket_amend_self (t := { t with store }) (lt_length_of_part hopen.1)
    refine ⟨_, h.refill hopen rfl rfl (fun k hk => ticket_amend_of_ne hk) ?_ ?_ hnumbered ?_ ?_⟩
    · rw [hself]
    · rw [hself]
      exact hopen.2
    · rwa [hholds.path] at hothers
    · rwa [hself]
  · simp only [not_exists] at hopen
    rw [Disk.write_of_no_part (h.part?_of_not_open hopen), ← h.store]
    refine ⟨d, h.amend hopen (fun number hsink => ?_) id⟩
    simp only [Slot.write] at hsink ⊢
    split at hsink
    · cases hsink
    · rfl

theorem perform_commit (h : t.store = .disk d) (n : Nat) :
    perform suite (.commit n) t = match Disk.commit (t.ticket n).slot d with
      | .ok _ d => .ok () (t.commit n (.disk d))
      | .error failure d => .error failure { t with store := .disk d } := by
  obtain ⟨store, tickets, commits⟩ := t
  cases h
  simp only [perform, Store.commit]
  cases Disk.commit (ticket ⟨.disk d, tickets, commits⟩ n).slot d <;> rfl

/-- A slot that is not open cannot be committed. -/
theorem commit_of_not_open (h : OnDisk root used t d) (hclosed : ∀ number, ¬ t.Open n number) :
    perform suite (.commit n) t =
      .error (.store (.foreignSlot (t.ticket n).slot.identifier)) t := by
  rw [perform_commit h.store, Disk.commit_of_no_part (h.part?_of_not_open hclosed)]
  simp [← h.store]

theorem final_abandon (h : t.store = .disk d) (n : Nat) :
    (perform suite (.abandon n)).final t =
      { t with store := .disk (d.abandon (t.ticket n).slot) }.amend n fun ticket =>
        { ticket with settled := true } := by
  obtain ⟨store, tickets, commits⟩ := t
  cases h
  rfl

/-- What stands where after the partial file of a slot was removed. -/
theorem nodeAt?_abandoned (h : OnDisk root used t d) {part : PartFile}
    (hholds : d.Holds (t.ticket n) number part) :
    ((Disk.flushed d.files part).remove part.path).Numbered ∧
      ∀ other, ((Disk.flushed d.files part).remove part.path).nodeAt? other =
        if other = d.partPlace (t.ticket n).slot.identifier number then none
        else d.files.nodeAt? other := by
  obtain ⟨content, hcontent, hoffset, _⟩ := hholds.content
  have hbare := Disk.bare_flushed (h.bare_partPlace (t.ticket n).slot.identifier number) part
  rw [← hholds.path] at hbare ⊢
  have hflushed := Disk.nodeAt?_flushed_self hcontent hoffset
  refine ⟨(Disk.numbered_flushed h.numbered part).remove _ hbare hflushed, fun other => ?_⟩
  rw [Files.nodeAt?_remove hflushed hbare]
  by_cases hother : other = part.path
  · simp [hother]
  · simp [hother, Disk.nodeAt?_flushed_of_ne h.numbered hcontent hother]

/-- What stands where after the partial file of a slot was moved into place. -/
theorem nodeAt?_committed (h : OnDisk root used t d) {part : PartFile}
    (hholds : d.Holds (t.ticket n) number part)
    (hmove : (Disk.flushed d.files part).move part.path part.target = .ok files) :
    files.Numbered ∧ ∀ other, files.nodeAt? other =
      if other = d.place (t.ticket n).slot.identifier then
        some (.file part.serial (t.ticket n).written)
      else if other = d.partPlace (t.ticket n).slot.identifier number then none
      else d.files.nodeAt? other := by
  obtain ⟨content, hcontent, hoffset, hwritten⟩ := hholds.content
  have hbare := Disk.bare_flushed (h.bare_partPlace (t.ticket n).slot.identifier number) part
  have hbare' := Disk.bare_flushed (h.bare_place (t.ticket n).slot.identifier) part
  have hne := (Disk.place_ne_partPlace d (t.ticket n).slot.identifier
    (t.ticket n).slot.identifier number).symm
  have hroot := Disk.place_ne_nil d (t.ticket n).slot.identifier
  rw [← hholds.path, ← hholds.target] at *
  have hflushed := Disk.nodeAt?_flushed_self hcontent hoffset
  refine ⟨(Disk.numbered_flushed h.numbered part).move hflushed hbare hbare' hne hroot hmove,
    fun other => ?_⟩
  rw [Files.nodeAt?_move hflushed hbare hbare' hne hroot hmove, hwritten]
  by_cases hother : other = part.path
  · simp [hother]
  · simp [hother, Disk.nodeAt?_flushed_of_ne h.numbered hcontent hother]

theorem abandon (h : OnDisk root used t d) (n : Nat) :
    ∃ d', OnDisk root used ((perform suite (.abandon n)).final t) d' := by
  rw [final_abandon h.store]
  by_cases hopen : ∃ number, t.Open n number
  · obtain ⟨number, hopen⟩ := hopen
    obtain ⟨part, hpart, hholds⟩ := h.part?_of_open hopen
    obtain ⟨hnumbered, hnode⟩ := h.nodeAt?_abandoned hholds
    have hself : ∀ {store}, ({ t with store }.amend n fun ticket =>
        { ticket with settled := true }).ticket n = { t.ticket n with settled := true } :=
      fun {store} => ticket_amend_self (t := { t with store }) (lt_length_of_part hopen.1)
    rw [Disk.abandon_of_part hpart]
    refine ⟨_, h.close hopen rfl (fun k hk => ticket_amend_of_ne hk) ?_ ?_ hnumbered ?_ ?_ ?_⟩
    · rw [hself]
    · rw [hself]
    · rw [hnode, if_pos rfl]
    · intro identifier hused
      have hsame : ((Disk.flushed d.files part).remove part.path).nodeAt? (d.place identifier) =
          d.files.nodeAt? (d.place identifier) := by
        rw [hnode, if_neg (Disk.place_ne_partPlace d _ _ _)]
      rw [hsame, Files.contentAt?_congr hsame]
      exact ⟨h.not_directory rfl, h.committed identifier hused⟩
    · intro other hother _
      rw [hnode, if_neg hother]
  · simp only [not_exists] at hopen
    rw [Disk.abandon_of_no_part (h.part?_of_not_open hopen), ← h.store]
    exact ⟨d, h.amend hopen (fun _ _ => rfl) fun _ => rfl⟩

/-- An open slot is committed unless the file system fails. -/
theorem commit (h : OnDisk root used t d) (hinj : used.InjOn HashAlgorithm.sha256.hash)
    (hopen : t.Open n number) :
    (∃ failure t', perform suite (.commit n) t = .error failure t' ∧
      failure.ofFileSystem = true) ∨
    ∃ d', perform suite (.commit n) t = .ok () (t.commit n (.disk d')) ∧
      OnDisk root used (t.commit n (.disk d')) d' := by
  obtain ⟨part, hpart, hholds⟩ := h.part?_of_open hopen
  rw [perform_commit h.store, Disk.commit_of_part hpart hholds.whole]
  cases hmove : (Disk.flushed d.files part).move part.path part.target with
  | error fault => exact .inl ⟨_, _, rfl, rfl⟩
  | ok files =>
    refine .inr ⟨_, rfl, ?_⟩
    obtain ⟨hnumbered, hnode⟩ := h.nodeAt?_committed hholds hmove
    have hself : ∀ store, (t.commit n store).ticket n = { t.ticket n with settled := true } :=
      fun store => ticket_amend_self (t := { t with store, commits := _ })
        (lt_length_of_part hopen.1)
    have hthere := (h.tracks n number hopen.1).used
    refine h.close hopen rfl (fun k hk => ticket_amend_of_ne hk) ?_ ?_ hnumbered ?_ ?_ ?_
    · rw [hself]
    · rw [hself]
    · rw [hnode, if_neg (Disk.place_ne_partPlace d _ _ _).symm, if_pos rfl]
    · intro identifier hused
      by_cases heq : identifier = (t.ticket n).slot.identifier
      · have hplaced : files.nodeAt? (d.place identifier) =
            some (.file part.serial (t.ticket n).written) := by
          rw [hnode, heq, if_pos rfl]
        rw [Files.contentAt?_of_file hplaced, hplaced]
        exact ⟨nofun, by simp [Traffic.commit, heq]⟩
      · have hplace : d.place identifier ≠ d.place (t.ticket n).slot.identifier := fun hplace =>
          heq (hinj hused hthere (Disk.hash_eq_of_key (Disk.key_of_place hplace)))
        have hsame : files.nodeAt? (d.place identifier) = d.files.nodeAt? (d.place identifier) := by
          rw [hnode, if_neg hplace, if_neg (Disk.place_ne_partPlace d _ _ _)]
        rw [hsame, Files.contentAt?_congr hsame, h.committed identifier hused]
        refine ⟨h.not_directory rfl, ?_⟩
        simp [Traffic.commit, List.lookup_cons, beq_false_of_ne heq]
    · intro other hpath hplace
      rw [hnode, if_neg (hplace _ hthere), if_neg hpath]

theorem perform_acquire (h : t.store = .disk d) (identifier : Bytes) :
    perform suite (.acquire identifier) t = match Disk.acquire suite identifier d with
      | .ok slot d => .ok () ({ t with store := .disk d }.add { slot })
      | .error failure d => .error failure { t with store := .disk d } := by
  obtain ⟨store, tickets, commits⟩ := t
  cases h
  simp only [perform, Store.acquire]
  cases Disk.acquire suite identifier d <;> rfl

/-- A slot is given unless the file system fails. It has a partial file unless the payload is in
place already. -/
theorem acquire (h : OnDisk root used t d)
    (hsuite : suite.digest .sha256 = some HashAlgorithm.sha256.hash) {identifier : Bytes}
    (hused : identifier ∈ used) :
    (∃ failure t', perform suite (.acquire identifier) t = .error failure t' ∧
      failure.ofFileSystem = true) ∨
    ∃ slot d', perform suite (.acquire identifier) t =
        .ok () ({ t with store := .disk d' }.add { slot }) ∧
      OnDisk root used ({ t with store := .disk d' }.add { slot }) d' ∧
      slot.identifier = identifier ∧
      slot.cached = (d.files.contentAt? (d.place identifier)).isSome ∧
      slot.sink = if slot.cached then none else some (.part d.nextPart) := by
  rw [perform_acquire h.store]
  cases hnode : d.files.nodeAt? (d.place identifier) with
  | some node =>
    rw [Disk.acquire_hit hsuite (Option.isSome_of_eq_some hnode)]
    refine .inr ⟨_, d, rfl, ?_, rfl, ?_, rfl⟩
    · rw [← h.store]
      exact h.add fun number => nofun
    · simp [← h.isSome_place, hnode]
  | none =>
    rcases Disk.acquire_miss hsuite h.plain hnode with ⟨failure, d', hacquire, hfailure⟩ |
      ⟨location, grown, serial, files, hgrown, hopen, hacquire⟩
    · rw [hacquire]
      exact .inl ⟨_, _, rfl, hfailure⟩
    · rw [hacquire]
      refine .inr ⟨_, _, rfl, h.issue hgrown hopen hused, rfl, ?_, rfl⟩
      simp [Files.contentAt?, hnode]

/-- Whatever is done, the files go on saying what was done, unless the file system fails. -/
theorem perform (h : OnDisk root used t d)
    (hsuite : suite.digest .sha256 = some HashAlgorithm.sha256.hash)
    (hinj : used.InjOn HashAlgorithm.sha256.hash) (move : Move)
    (hused : ∀ identifier, move = .acquire identifier → identifier ∈ used)
    (hsmooth : ∀ failure t', perform suite move t = .error failure t' →
      failure.ofFileSystem = false) :
    ∃ d', OnDisk root used ((perform suite move).final t) d' := by
  cases move with
  | acquire identifier =>
    rcases h.acquire hsuite (hused identifier rfl) with ⟨failure, t', herror, hfailure⟩ |
      ⟨slot, d', hok, hd', _⟩
    · simp [hsmooth failure t' herror] at hfailure
    · rw [final_of_ok hok]
      exact ⟨d', hd'⟩
  | bring identifier buffered => exact ⟨d, h.bring identifier buffered⟩
  | write n data => exact h.write n data
  | commit n =>
    by_cases hopen : ∃ number, t.Open n number
    · obtain ⟨number, hopen⟩ := hopen
      rcases h.commit hinj hopen with ⟨failure, t', herror, hfailure⟩ | ⟨d', hok, hd'⟩
      · simp [hsmooth failure t' herror] at hfailure
      · rw [final_of_ok hok]
        exact ⟨d', hd'⟩
    · rw [final_of_error (h.commit_of_not_open (not_exists.1 hopen))]
      exact ⟨d, h⟩
  | abandon n => exact h.abandon n

theorem run (h : OnDisk root used t d)
    (hsuite : suite.digest .sha256 = some HashAlgorithm.sha256.hash)
    (hinj : used.InjOn HashAlgorithm.sha256.hash) {moves : List Move}
    (hused : ∀ identifier, .acquire identifier ∈ moves → identifier ∈ used)
    (hsmooth : t.smooth suite moves = true) : ∃ d', OnDisk root used (t.run suite moves) d' := by
  induction moves generalizing t d with
  | nil => exact ⟨d, h⟩
  | cons move moves ih =>
    simp only [smooth, Bool.and_eq_true] at hsmooth
    obtain ⟨hfirst, hrest⟩ := hsmooth
    obtain ⟨d', hd'⟩ := h.perform hsuite hinj move
      (fun identifier hmove => hused identifier (hmove ▸ List.mem_cons_self))
      (fun failure t' herror => by simpa [herror] using hfirst)
    exact ih hd' (fun identifier hmem => hused identifier (List.mem_cons_of_mem _ hmem)) hrest

end OnDisk

/-! ## What the files say -/

/-- The files of a store say what was done at it. -/
structure Recorded (suite : Suite) (used : Set Bytes) (t : Traffic) (d : Disk) : Prop where
  /-- A payload is in place if it was committed, and then it is what was committed last. -/
  payloads : ∀ identifier ∈ used,
    d.contains suite identifier = .ok (t.commits.lookup identifier).isSome ∧
    d.files.contentAt? (d.place identifier) = t.commits.lookup identifier
  /-- The partial files are those of the open slots. -/
  partials : ∀ path, d.root <+: path → path ≠ d.root →
    ((d.files.contentAt? path).isSome ∧ Disk.Partial path ↔
      ∃ n number, t.Open n number ∧ path = d.partPlace (t.ticket n).slot.identifier number)
  distinct : ∀ n k number number', t.Open n number → t.Open k number' →
    d.partPlace (t.ticket n).slot.identifier number =
      d.partPlace (t.ticket k).slot.identifier number' → n = k
  /-- A slot is said to be cached if the payload is in place, and is open otherwise. -/
  acquire : ∀ identifier ∈ used,
    (∃ failure t', perform suite (.acquire identifier) t = .error failure t' ∧
      failure.ofFileSystem = true) ∨
    ∃ t', perform suite (.acquire identifier) t = .ok () t' ∧
      (t'.ticket t.tickets.length).slot.identifier = identifier ∧
      (t'.ticket t.tickets.length).slot.cached =
        (d.files.contentAt? (d.place identifier)).isSome ∧
      ((t'.ticket t.tickets.length).slot.cached = false ↔
        ∃ number, t'.Open t.tickets.length number)
  /-- An open slot can be committed. -/
  commit : ∀ n number, t.Open n number →
    (∃ failure t', perform suite (.commit n) t = .error failure t' ∧
      failure.ofFileSystem = true) ∨
    ∃ store, perform suite (.commit n) t = .ok () (t.commit n store)
  /-- Any other slot can not, and it makes no difference whether it is abandoned. -/
  refuse : ∀ n, (∀ number, ¬ t.Open n number) →
    perform suite (.commit n) t =
      .error (.store (.foreignSlot (t.ticket n).slot.identifier)) t ∧
    ((perform suite (.abandon n)).final t).store = t.store

theorem OnDisk.recorded (h : OnDisk root used t d)
    (hsuite : suite.digest .sha256 = some HashAlgorithm.sha256.hash)
    (hinj : used.InjOn HashAlgorithm.sha256.hash) : Recorded suite used t d where
  payloads identifier hused := by
    have hcommitted := h.committed identifier hused
    refine ⟨?_, hcommitted⟩
    have hcontains : d.contains suite identifier =
        .ok (d.files.nodeAt? (d.place identifier)).isSome := by
      unfold Disk.contains
      rw [Disk.hashKey_eq hsuite]
      rfl
    rw [hcontains, ← hcommitted, h.isSome_place]
  partials path hroot hne := by
    obtain ⟨rest, rfl⟩ := hroot
    have hrest : rest ≠ [] := by
      rintro rfl
      exact hne (List.append_nil _)
    constructor
    · rintro ⟨hcontent, hpartial⟩
      rcases h.files rest hrest hcontent with ⟨identifier, _, hplace⟩ | hopen
      · exact absurd (hplace ▸ hpartial) (Disk.not_partial_place d identifier)
      · exact hopen
    · rintro ⟨n, number, hopen, hplace⟩
      obtain ⟨part, _, hholds⟩ := h.part?_of_open hopen
      obtain ⟨content, hcontent, _⟩ := hholds.content
      rw [hholds.path] at hcontent
      rw [hplace, Files.contentAt?_of_file hcontent]
      exact ⟨rfl, Disk.partial_partPlace d _ _⟩
  distinct n k number number' hn hk hplace := by
    obtain rfl := Disk.number_of_partPlace hplace
    exact h.unique n k number hn.1 hk.1
  acquire identifier hused := by
    rcases h.acquire hsuite hused with hfailure | ⟨slot, d', hok, _, hidentifier, hcached, hsink⟩
    · exact .inl hfailure
    · refine .inr ⟨_, hok, ?_⟩
      have hself : ({ t with store := .disk d' }.add { slot }).ticket t.tickets.length = { slot } :=
        ticket_add_self (t := { t with store := .disk d' })
      simp only [Open, hself]
      refine ⟨hidentifier, hcached, ?_⟩
      rw [hsink]
      cases slot.cached <;> simp
  commit n number hopen := by
    rcases h.commit hinj hopen with hfailure | ⟨d', hok, _⟩
    · exact .inl hfailure
    · exact .inr ⟨_, hok⟩
  refuse n hclosed := by
    refine ⟨h.commit_of_not_open hclosed, ?_⟩
    rw [OnDisk.final_abandon h.store, Disk.abandon_of_no_part (h.part?_of_not_open hclosed)]
    exact h.store.symm

/-- Whatever was done at a store on disk, in whatever order and over however many slots, its files
say what was done, as long as the file system does its part and SHA-256 does not collide on the
identifiers that are used. -/
theorem disk_of_run {first : Disk} (hfirst : first.Fresh)
    (hsuite : suite.digest .sha256 = some HashAlgorithm.sha256.hash)
    (hinj : used.InjOn HashAlgorithm.sha256.hash) (moves : List Move)
    (hused : ∀ identifier, .acquire identifier ∈ moves → identifier ∈ used)
    (hsmooth : smooth suite { store := .disk first } moves = true) (t : Traffic)
    (ht : t = Traffic.run suite { store := .disk first } moves) :
    ∃ d, t.store = .disk d ∧ d.root = first.root ∧ Recorded suite used t d := by
  obtain ⟨d, h⟩ := (onDisk_fresh hfirst).run hsuite hinj hused hsmooth
  subst ht
  exact ⟨d, h.store, h.root, h.recorded hsuite hinj⟩

/-- Three requests for one resource, two of which come before it is there, and one for another. -/
def visits : List Move :=
  [.acquire (ascii "a"), .acquire (ascii "a"), .write 0 (ascii "xy"), .write 1 (ascii "z"),
    .commit 1, .acquire (ascii "a"), .commit 2, .write 0 (ascii "w"), .commit 0, .commit 0,
    .acquire (ascii "b"), .write 3 (ascii "p"), .abandon 1]

/-- A store on a base directory that was created for it. -/
def blank : Disk where
  base := ascii "store"
  root := [ascii "store"]
  files := { nodes := [([ascii "store"], .directory)] }

theorem fresh_blank : blank.Fresh := by
  have hbase : Disk.prepareBase blank.base {} = .ok blank.root blank.files := rfl
  refine Disk.fresh_of_prepareBase (fun path hpath => ?_) hbase ?_ ?_
  · cases hpath
    exact nofun
  · intro rest hrest
    cases rest with
    | nil => exact absurd rfl hrest
    | cons name rest => rfl
  · refine Files.numbered_of_directories fun entry hentry => ?_
    rw [List.mem_singleton.1 hentry]

/-- The payload that was committed last is in place, the other resource has a partial file, and the
slots of the first one are of no use any more. -/
theorem disk_of_run_visited : ∃ d,
    (run Suite.full { store := .disk blank } visits).store = .disk d ∧
    d.contains Suite.full (ascii "a") = .ok true ∧
    d.files.contentAt? (d.place (ascii "a")) = some (ascii "xyw") ∧
    (d.files.contentAt? (d.partPlace (ascii "b") 2)).isSome := by
  have hhashes : HashAlgorithm.sha256.hash (ascii "a") ≠ HashAlgorithm.sha256.hash (ascii "b") := by
    decide +kernel
  have hinj : Set.InjOn HashAlgorithm.sha256.hash {ascii "a", ascii "b"} := by
    rintro s (rfl | rfl) s' (rfl | rfl) hhash
    · rfl
    · exact absurd hhash hhashes
    · exact absurd hhash.symm hhashes
    · rfl
  obtain ⟨hsmooth, hcommits, hopen, hidentifier⟩ :
      smooth Suite.full { store := .disk blank } visits = true ∧
      (run Suite.full { store := .disk blank } visits).commits.lookup (ascii "a") =
        some (ascii "xyw") ∧
      (run Suite.full { store := .disk blank } visits).Open 3 2 ∧
      ((run Suite.full { store := .disk blank } visits).ticket 3).slot.identifier = ascii "b" := by
    unfold Open
    decide +kernel
  obtain ⟨d, hstore, hroot, hrecorded⟩ := disk_of_run fresh_blank rfl hinj visits
    (by simp [visits]) hsmooth (run Suite.full { store := .disk blank } visits) rfl
  obtain ⟨hcontains, hcontent⟩ := hrecorded.payloads (ascii "a") (.inl rfl)
  rw [hcommits] at hcontains hcontent
  refine ⟨d, hstore, hcontains, hcontent, ?_⟩
  refine ((hrecorded.partials _ ?_ ?_).2 ⟨3, 2, hopen, ?_⟩).1
  · rw [Disk.partPlace_eq]
    exact List.prefix_append _ _
  · rw [Disk.partPlace_eq]
    simp
  · rw [hidentifier]

end Traffic

end Store

end Gntp
