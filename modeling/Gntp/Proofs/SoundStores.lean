import Gntp.Proofs.DiskTraffic

/-!
# Stores whose numbers are in order

A store on disk tells its partial files apart by their numbers, and the number that it gives next is
one that none of them has (`Disk.Sound`). So it is when the store is opened, and whatever is done at
it (`Store.sound_of_run`). A slot that such a store gives has an empty sink of its own, and what is
written to it then is what the sink holds (`Store.received?_of_write`).
-/

namespace Gntp

open Gntp.Action

/-! ## Opening an empty file -/

namespace Files

variable {fs fs' : Files} {path other : Path} {serial : Nat}

/-- Only a file can be opened, or what is not there yet, and it is empty then. -/
theorem openEmpty?_eq_some (h : fs.openEmpty? path = some (serial, fs')) :
    path ≠ [] ∧ fs.isDirectory path.dropLast = true ∧ fs.nodeAt? path ≠ some .directory ∧
      ∀ other, fs'.nodeAt? other =
        if other = path then some (.file serial []) else fs.nodeAt? other := by
  unfold openEmpty? at h
  split at h
  · cases h
  · next hparent =>
    have hparent : fs.isDirectory path.dropLast = true := not_not.1 hparent
    have hne (hnode : fs.nodeAt? path ≠ some .directory) : path ≠ [] := by
      rintro rfl
      exact hnode rfl
    split at h
    · cases h
    · next hnode =>
      cases h
      have hnode : fs.nodeAt? path ≠ some .directory := by simp [hnode]
      exact ⟨hne hnode, hparent, hnode, nodeAt?_of_set rfl (hne hnode)⟩
    · next hnode =>
      cases h
      have hnode : fs.nodeAt? path ≠ some .directory := by simp [hnode]
      exact ⟨hne hnode, hparent, hnode, nodeAt?_of_set rfl (hne hnode)⟩

/-- Where its parent is a directory, anything but a directory can be opened. -/
theorem exists_openEmpty? (hparent : fs.isDirectory path.dropLast = true)
    (hnode : fs.nodeAt? path ≠ some .directory) :
    ∃ serial fs', fs.openEmpty? path = some (serial, fs') := by
  unfold openEmpty?
  rw [if_neg (not_not.2 hparent)]
  split
  · next hdirectory => exact absurd hdirectory hnode
  · exact ⟨_, _, rfl⟩
  · exact ⟨_, _, rfl⟩

end Files

namespace Store

namespace Disk

variable {suite : Suite} {identifier : Bytes} {d d' : Disk} {slot : Slot} {number : Nat}
  {part : PartFile}

/-- The base directory is named without detours, and no partial file has a number that is still to
be given. -/
structure Sound (d : Disk) : Prop where
  plain : d.root.Plain
  next : ∀ number, d.nextPart ≤ number → d.parts.lookup number = none

/-- A store that is opened is sound. -/
theorem sound_of_prepareBase {base : Bytes} {before files : Files} {root : Path}
    (hplain : ∀ path, before.workingDirectory = some path → path.Plain)
    (h : prepareBase base before = .ok root files) : Sound { base, root, files } :=
  ⟨plain_of_prepareBase hplain h, fun _ _ => rfl⟩

/-! ## Giving a slot -/

/-- Creating directories changes the files only. -/
theorem prepare_files (d : Disk) (target : Path) :
    (∃ files, d.prepare target = .ok { d with files }) ∨
      ∃ files, d.prepare target = .error { d with files } := by
  unfold prepare
  split
  · exact .inl ⟨d.files, rfl⟩
  · cases Files.createDirectories target.dropLast d.files with
    | ok _ files => exact .inl ⟨files, rfl⟩
    | error _ files => exact .inr ⟨files, rfl⟩

/-- What giving a slot does: nothing if the payload is there, or it opens the next partial file, or
it fails. -/
inductive Acquires (suite : Suite) (identifier : Bytes) (d : Disk) :
    EStateM.Result Failure Disk Slot → Prop
  | hit {location : Bytes} :
    Acquires suite identifier d (.ok { identifier, cached := true, location } d)
  | miss {location : Bytes} {grown files : Files} {target path : Path} {serial : Nat}
    (prepared : d.prepare target = .ok { d with files := grown })
    (opened : grown.openEmpty? path = some (serial, files)) :
    Acquires suite identifier d (.ok { identifier, location, sink := some (.part d.nextPart) }
      { d with
        files
        nextPart := d.nextPart + 1
        parts := d.parts ++ [(d.nextPart, { target, path, serial })] })
  | failed {failure : Failure} {files : Files} {nextPart : Nat}
    (kind : failure = .fileSystem ∨ ∃ fault, failure = .store fault)
    (later : d.nextPart ≤ nextPart) :
    Acquires suite identifier d (.error failure { d with files, nextPart })

theorem commit_of_broken (hpart : d.part? slot = some (number, part))
    (hbroken : part.broken = true) :
    commit slot d = .error (.store (.payloadNotWritten slot.identifier)) { d with
      files := (flushed d.files part).remove part.path
      parts := Assoc.erase number d.parts } := by
  simp only [commit, close?_of_part hpart, hbroken]
  rfl

theorem store_of_hashKey {failure : Failure} (h : hashKey suite identifier = .error failure) :
    ∃ fault, failure = .store fault := by
  unfold hashKey at h
  split at h
  · cases h
    exact ⟨_, rfl⟩
  · cases h

theorem acquires (suite : Suite) (identifier : Bytes) (d : Disk) :
    Acquires suite identifier d (acquire suite identifier d) := by
  unfold acquire
  cases hkey : hashKey suite identifier with
  | error failure => exact .failed (.inr (store_of_hashKey hkey)) (Nat.le_refl _)
  | ok hash =>
    dsimp only
    split
    · exact .hit
    · rcases d.prepare_files (d.root ++ namesOf hash) with ⟨grown, hprepare⟩ | ⟨grown, hprepare⟩
      · rw [hprepare]
        dsimp only
        cases hopen : grown.openEmpty? (partPath (d.root ++ namesOf hash) d.nextPart) with
        | none => exact .failed (.inr ⟨_, rfl⟩) (Nat.le_succ _)
        | some opened => exact .miss hprepare hopen
      · rw [hprepare]
        exact .failed (.inl rfl) (Nat.le_refl _)

namespace Sound

theorem lt_next (h : d.Sound) (hpart : d.parts.lookup number = some part) :
    number < d.nextPart := by
  rcases Nat.lt_or_ge number d.nextPart with hlt | hge
  · exact hlt
  · rw [h.next number hge] at hpart
    cases hpart

theorem lookup_of_part (hpart : d.part? slot = some (number, part)) :
    d.parts.lookup number = some part := by
  unfold part? at hpart
  split at hpart
  · obtain ⟨found, hfound, heq⟩ := Option.map_eq_some_iff.1 hpart
    cases heq
    exact hfound
  · cases hpart

/-- Other files, and another partial file in the place of one that was there. -/
theorem set (h : d.Sound) (hpart : d.part? slot = some (number, part)) (files : Files)
    (part' : PartFile) : Sound { d with files, parts := Assoc.set number part' d.parts } where
  plain := h.plain
  next number' hnext := by
    have hlt := h.lt_next (lookup_of_part hpart)
    have hne : number' ≠ number := by
      rintro rfl
      exact Nat.not_le.2 hlt hnext
    exact (Assoc.lookup_set_of_ne hne part' d.parts).trans (h.next number' hnext)

/-- Other files, and one partial file less. -/
theorem erase (h : d.Sound) (files : Files) (number : Nat) :
    Sound { d with files, parts := Assoc.erase number d.parts } where
  plain := h.plain
  next number' hnext := by
    by_cases heq : number' = number
    · rw [heq]
      exact Assoc.lookup_erase_self number d.parts
    · exact (Assoc.lookup_erase_of_ne heq d.parts).trans (h.next number' hnext)

theorem acquire (h : d.Sound) (suite : Suite) (identifier : Bytes) :
    ((acquire suite identifier).final d).Sound := by
  have hacquires := acquires suite identifier d
  unfold final
  generalize Disk.acquire suite identifier d = outcome at hacquires
  cases hacquires with
  | hit => exact h
  | failed kind later =>
    exact ⟨h.plain, fun number hnext => h.next number (Nat.le_trans later hnext)⟩
  | miss =>
    refine ⟨h.plain, fun number hnext => ?_⟩
    have hlt : d.nextPart < number := hnext
    simp [List.lookup_append, List.lookup_cons, h.next number (Nat.le_of_lt hlt),
      beq_false_of_ne (Nat.ne_of_gt hlt)]

theorem write (h : d.Sound) (slot : Slot) (data : Bytes) : (d.write slot data).Sound := by
  unfold Disk.write
  cases hpart : d.part? slot with
  | none => exact h
  | some found =>
    obtain ⟨number, part⟩ := found
    dsimp only
    split
    · exact h
    · split
      · exact h.set hpart d.files _
      · exact h.set hpart _ _

theorem commit (h : d.Sound) (slot : Slot) : ((commit slot).final d).Sound := by
  cases hpart : d.part? slot with
  | none =>
    rw [final_of_error (commit_of_no_part hpart)]
    exact h
  | some found =>
    obtain ⟨number, part⟩ := found
    cases hwhole : part.broken with
    | true =>
      rw [final_of_error (commit_of_broken hpart hwhole)]
      exact h.erase _ number
    | false =>
      have hcommit := commit_of_part hpart hwhole
      cases hmove : (flushed d.files part).move part.path part.target with
      | ok files =>
        rw [hmove] at hcommit
        rw [final_of_ok hcommit]
        exact h.erase files number
      | error fault =>
        rw [hmove] at hcommit
        rw [final_of_error hcommit]
        exact h.erase _ number

theorem abandon (h : d.Sound) (slot : Slot) : (d.abandon slot).Sound := by
  cases hpart : d.part? slot with
  | none =>
    rw [abandon_of_no_part hpart]
    exact h
  | some found =>
    rw [abandon_of_part hpart]
    exact h.erase _ found.1

end Sound

/-- A sound store gives a slot whose partial file is its own. -/
theorem part?_of_acquire (h : d.Sound) (hmiss : slot.cached = false)
    (hacquire : acquire suite identifier d = .ok slot d') :
    ∃ number part, slot.sink = some (.part number) ∧ d'.part? slot = some (number, part) ∧
      part.broken = false ∧ part.offset = 0 ∧ part.buffered = [] ∧
      d'.files.nodeAt? part.path = some (.file part.serial []) := by
  have hacquires := acquires suite identifier d
  rw [hacquire] at hacquires
  cases hacquires with
  | hit => cases hmiss
  | @miss _ _ _ target path serial _ opened =>
    refine ⟨d.nextPart, { target, path, serial }, rfl, ?_, rfl, rfl, rfl, ?_⟩
    · simp [part?, List.lookup_append, h.next d.nextPart (Nat.le_refl _)]
    · exact ((Files.openEmpty?_eq_some opened).2.2.2 path).trans (if_pos rfl)

/-- What is written to a partial file is in it behind what it held, or still to be written to it. -/
theorem holding_of_write {content : Bytes} (hpart : d.part? slot = some (number, part))
    (hwhole : part.broken = false)
    (hfile : d.files.nodeAt? part.path = some (.file part.serial content))
    (hoffset : part.offset = content.length) (data : Bytes) :
    ∃ part' content', (d.write slot data).parts.lookup number = some part' ∧
      (d.write slot data).files.contentAt? part'.path = some content' ∧
      content' ++ part'.buffered = content ++ (part.buffered ++ data) := by
  let filled : PartFile := { part with buffered := part.buffered ++ data }
  by_cases hheld : holdsBack part.buffered.length data.length
  · have hwrite : d.write slot data = { d with parts := Assoc.set number filled d.parts } := by
      simp [write, hpart, hwhole, hheld, filled]
    rw [hwrite]
    exact ⟨filled, content, Assoc.lookup_set_self _ _ _, Files.contentAt?_of_file hfile, rfl⟩
  · have hwrite : d.write slot data = d.flushPart number filled := by
      simp [write, hpart, hwhole, hheld, filled]
    have hfilled : d.files.nodeAt? filled.path = some (.file filled.serial content) := hfile
    have hflushed : (flushed d.files filled).nodeAt? part.path =
        some (.file part.serial (content ++ filled.buffered)) := nodeAt?_flushed_self hfilled hoffset
    rw [hwrite]
    exact ⟨_, content ++ filled.buffered, Assoc.lookup_set_self _ _ _,
      Files.contentAt?_of_file hflushed, List.append_nil _⟩

end Disk

variable {suite : Suite} {identifier : Bytes} {store opened : Store} {slot : Slot}

/-- A store in memory has no partial files. -/
def Sound : Store → Prop
  | disk d => d.Sound
  | memory _ | discard => True

/-! ## Runs -/

/-- Whatever is done at a sound store, it stays sound. -/
theorem sound_of_perform {t : Traffic} (h : t.store.Sound) (move : Move) :
    ((Traffic.perform suite move).final t).store.Sound := by
  obtain ⟨store, tickets, commits⟩ := t
  cases store with
  | discard => cases move <;> exact trivial
  | memory m =>
    cases move with
    | commit n =>
      unfold final Traffic.perform Store.commit
      dsimp only
      cases m.commit _ <;> exact trivial
    | _ => exact trivial
  | disk d =>
    have hd : d.Sound := h
    cases move with
    | acquire identifier =>
      have hacquire := hd.acquire suite identifier
      unfold final at hacquire
      unfold final Traffic.perform Store.acquire
      dsimp only
      cases hx : Disk.acquire suite identifier d <;> (rw [hx] at hacquire; exact hacquire)
    | bring identifier buffered => exact hd
    | write n data => exact hd.write _ data
    | commit n =>
      have hcommit := hd.commit (Traffic.ticket ⟨disk d, tickets, commits⟩ n).slot
      unfold final at hcommit
      unfold final Traffic.perform Store.commit
      dsimp only
      cases hx : Disk.commit (Traffic.ticket ⟨disk d, tickets, commits⟩ n).slot d <;>
        (rw [hx] at hcommit; exact hcommit)
    | abandon n => exact hd.abandon _

theorem sound_of_run {t : Traffic} (h : t.store.Sound) (moves : List Move) :
    (t.run suite moves).store.Sound :=
  Traffic.run_preserves (P := fun t => t.store.Sound) (fun _ move h => sound_of_perform h move) h
    moves

/-! ## Sinks -/

/-- What the sink of a slot holds: a buffer, or a partial file with what has still to be written to
it. -/
def received? (store : Store) (slot : Slot) : Option Bytes :=
  match slot.sink, store with
  | some (.buffer content _), _ => some content
  | some (.part number), disk d => do
    let part ← d.parts.lookup number
    let content ← d.files.contentAt? part.path
    return content ++ part.buffered
  | _, _ => none

theorem acquire_disk_eq_ok {d : Disk} : acquire suite identifier (disk d) = .ok slot opened ↔
    ∃ d', Disk.acquire suite identifier d = .ok slot d' ∧ opened = disk d' := by
  cases hx : Disk.acquire suite identifier d with
  | error failure d' =>
    have hdisk : acquire suite identifier (disk d) = .error failure (disk d') := by
      simp only [acquire, hx]
    rw [hdisk]
    constructor
    · intro h
      cases h
    · rintro ⟨_, h, _⟩
      cases h
  | ok slot' d' =>
    have hdisk : acquire suite identifier (disk d) = .ok slot' (disk d') := by
      simp only [acquire, hx]
    rw [hdisk]
    constructor
    · intro h
      cases h
      exact ⟨d', rfl, rfl⟩
    · rintro ⟨_, h, rfl⟩
      cases h
      rfl

/-- A slot for a payload that is there already is given without changing anything. -/
theorem eq_of_acquire_cached (hacquire : acquire suite identifier store = .ok slot opened)
    (hcached : slot.cached = true) : opened = store := by
  cases store with
  | memory m =>
    cases hacquire
    rfl
  | discard =>
    cases hacquire
    rfl
  | disk d =>
    obtain ⟨d', hdisk, rfl⟩ := acquire_disk_eq_ok.1 hacquire
    have hacquires := Disk.acquires suite identifier d
    rw [hdisk] at hacquires
    cases hacquires with
    | hit => rfl
    | miss => cases hcached

/-- A payload that is written to a new slot is what its sink holds, if it has one. -/
theorem received?_of_write (h : store.Sound) (hmiss : slot.cached = false)
    (hacquire : acquire suite identifier store = .ok slot opened) (payload : Bytes)
    (hsink : slot.sink ≠ none) :
    (opened.write slot payload).2.received? (opened.write slot payload).1 = some payload := by
  cases store with
  | memory m =>
    cases hacquire
    have hcontains : m.contains identifier = false := hmiss
    unfold Memory.acquire
    rw [hcontains]
    rfl
  | discard =>
    cases hacquire
    exact absurd rfl hsink
  | disk d =>
    obtain ⟨d', hdisk, rfl⟩ := acquire_disk_eq_ok.1 hacquire
    obtain ⟨number, part, hpart, hfound, hwhole, hoffset, hbuffered, hfile⟩ :=
      Disk.part?_of_acquire h hmiss hdisk
    have hslot : slot.write payload = slot := by
      unfold Slot.write
      rw [hpart]
    obtain ⟨part', content, hlookup, hcontent, hheld⟩ :=
      Disk.holding_of_write hfound hwhole hfile hoffset payload
    change received? (disk (d'.write slot payload)) (slot.write payload) = some payload
    unfold received?
    rw [hslot, hpart]
    simp [hlookup, hcontent, hheld, hbuffered]

end Store

end Gntp
