import Gntp.Files

/-!
# What file operations change

What stands at each path of a tree of files after an operation, said by what stood there before.
Directories are only created above a path (`Grown`), a partial file is written at its end, moved and
taken away, and files go on having serial numbers of their own (`Numbered`).
-/

namespace Gntp

/-- No name in the path is one that leads back. -/
def Path.Plain (path : Path) : Prop :=
  ∀ name ∈ path, name ≠ [] ∧ name ≠ Files.here ∧ name ≠ Files.parent

namespace Files

variable {fs fs' : Files} {path other : Path} {name : Bytes} {node : Node} {serial : Nat}
  {content data : Bytes}

/-- The content of the file at a path. -/
def contentAt? (fs : Files) (path : Path) : Option Bytes :=
  match fs.nodeAt? path with
  | some (.file _ content) => some content
  | _ => none

theorem contentAt?_of_file (h : fs.nodeAt? path = some (.file serial content)) :
    fs.contentAt? path = some content := by
  simp [contentAt?, h]

theorem contentAt?_congr (h : fs'.nodeAt? path = fs.nodeAt? path) :
    fs'.contentAt? path = fs.contentAt? path := by
  simp [contentAt?, h]

/-- Nothing stands below the path. -/
def Bare (fs : Files) (path : Path) : Prop := ∀ rest ≠ [], fs.nodeAt? (path ++ rest) = none

/-- Every file has a serial number of its own, and the next one is new. -/
structure Numbered (fs : Files) : Prop where
  lt_next : ∀ {path serial content},
    fs.nodeAt? path = some (.file serial content) → serial < fs.nextSerial
  unique : ∀ {path other serial content content'},
    fs.nodeAt? path = some (.file serial content) →
    fs.nodeAt? other = some (.file serial content') → path = other

/-- Files may be written, taken away, and moved to where nothing stands after that. -/
theorem Numbered.of_origin (h : fs.Numbered) (hnext : fs.nextSerial ≤ fs'.nextSerial)
    (origin : Path → Path) (hinj : ∀ {path other}, (fs'.nodeAt? path).isSome →
      (fs'.nodeAt? other).isSome → origin path = origin other → path = other)
    (hfile : ∀ {path serial content}, fs'.nodeAt? path = some (.file serial content) →
      ∃ content', fs.nodeAt? (origin path) = some (.file serial content')) : fs'.Numbered where
  lt_next hpath := by
    obtain ⟨_, horigin⟩ := hfile hpath
    exact Nat.lt_of_lt_of_le (h.lt_next horigin) hnext
  unique hpath hother := by
    obtain ⟨_, horigin⟩ := hfile hpath
    obtain ⟨_, horigin'⟩ := hfile hother
    exact hinj (by simp [hpath]) (by simp [hother]) (h.unique horigin horigin')

theorem numbered_of_directories (h : ∀ entry ∈ fs.nodes, entry.2 = .directory) : fs.Numbered := by
  have hnone : ∀ {path serial content}, fs.nodeAt? path ≠ some (.file serial content) := by
    intro path serial content hfile
    unfold nodeAt? at hfile
    split at hfile
    · cases hfile
    · cases h _ (Assoc.mem_of_lookup hfile)
  exact ⟨fun hfile => absurd hfile hnone, fun hfile => absurd hfile hnone⟩

/-! ## Creating -/

theorem nodeAt?_of_set (hnodes : fs'.nodes = Assoc.set path node fs.nodes) (hne : path ≠ [])
    (other : Path) :
    fs'.nodeAt? other = if other = path then some node else fs.nodeAt? other := by
  by_cases hother : other = path
  · subst hother
    simp [nodeAt?, hnodes, hne]
  · simp [nodeAt?, hnodes, hother, Assoc.lookup_set_of_ne hother]

/-- Above the path there are directories where nothing stood before. All else is as it was. -/
structure Grown (path : Path) (fs fs' : Files) : Prop where
  nextSerial : fs'.nextSerial = fs.nextSerial
  nodeAt? : ∀ other, fs'.nodeAt? other = fs.nodeAt? other ∨
    other <+: path ∧ fs.nodeAt? other = none ∧ fs'.nodeAt? other = some .directory

namespace Grown

theorem refl (path : Path) (fs : Files) : Grown path fs fs := ⟨rfl, fun _ => .inl rfl⟩

theorem contentAt? (h : Grown path fs fs') (other : Path) :
    fs'.contentAt? other = fs.contentAt? other := by
  rcases h.nodeAt? other with hsame | ⟨_, hnone, hdirectory⟩
  · exact contentAt?_congr hsame
  · simp [Files.contentAt?, hnone, hdirectory]

theorem file (h : Grown path fs fs') {other : Path} :
    fs'.nodeAt? other = some (.file serial content) ↔
      fs.nodeAt? other = some (.file serial content) := by
  rcases h.nodeAt? other with hsame | ⟨_, hnone, hdirectory⟩
  · rw [hsame]
  · simp [hnone, hdirectory]

theorem numbered (h : Grown path fs fs') (hfs : fs.Numbered) : fs'.Numbered :=
  hfs.of_origin (Nat.le_of_eq h.nextSerial.symm) id (fun _ _ => id) fun hfile => ⟨_, h.file.1 hfile⟩

end Grown

/-- What is done with the state is done with the one that is there. -/
theorem get_bind_apply {f : Files → EStateM MoveFault Files Path} : (get >>= f) fs = f fs fs := rfl

theorem enterNew_of_name (hname : name ≠ [] ∧ name ≠ here ∧ name ≠ parent) :
    enterNew path name fs = match fs.nodeAt? (path ++ [name]) with
      | some .directory => .ok (path ++ [name]) fs
      | some (.file ..) => .error .notADirectory fs
      | none =>
        if nameLimit < name.length then .error .nameTooLong fs
        else .ok (path ++ [name])
          { fs with nodes := Assoc.set (path ++ [name]) .directory fs.nodes } := by
  rw [enterNew, if_neg (by simp [hname]), if_neg hname.2.2, get_bind_apply]
  rcases fs.nodeAt? (path ++ [name]) with _ | _ | _
  · by_cases hlong : nameLimit < name.length
    · simp only [if_pos hlong]
      rfl
    · simp only [if_neg hlong]
      rfl
  · rfl
  · rfl

theorem grown_of_enterNew (hname : name ≠ [] ∧ name ≠ here ∧ name ≠ parent) {next : Path}
    (h : enterNew path name fs = .ok next fs') : next = path ++ [name] ∧ Grown next fs fs' := by
  rw [enterNew_of_name hname] at h
  split at h
  · cases h
    exact ⟨rfl, .refl _ _⟩
  · cases h
  · next hnone =>
    split at h
    · cases h
    · cases h
      refine ⟨rfl, rfl, fun other => ?_⟩
      rw [nodeAt?_of_set rfl (by simp)]
      split
      · next heq => exact .inr ⟨heq ▸ List.prefix_rfl, heq ▸ hnone, rfl⟩
      · exact .inl rfl

/-- Names that lead on create directories along their way and nothing else. -/
theorem grown_of_foldlM {names : List Bytes} (hnames : Path.Plain names) {last : Path}
    (h : names.foldlM enterNew path fs = .ok last fs') : Grown (path ++ names) fs fs' := by
  induction names generalizing path fs with
  | nil =>
    cases h
    exact .refl _ _
  | cons name names ih =>
    obtain ⟨hname, hnames⟩ := List.forall_mem_cons.1 hnames
    rw [List.foldlM_cons] at h
    simp only [bind, EStateM.bind] at h
    split at h
    · next next middle hnext =>
      obtain ⟨rfl, hfirst⟩ := grown_of_enterNew hname hnext
      have hrest := ih hnames h
      rw [List.append_assoc, List.singleton_append] at hrest
      have hprefix : path ++ [name] <+: path ++ name :: names := ⟨names, by simp⟩
      refine ⟨hrest.nextSerial.trans hfirst.nextSerial, fun other => ?_⟩
      rcases hrest.nodeAt? other with hsame | ⟨habove, hnone, hdirectory⟩
      · rw [hsame]
        exact (hfirst.nodeAt? other).imp_right fun ⟨habove, hnew⟩ => ⟨habove.trans hprefix, hnew⟩
      · rcases hfirst.nodeAt? other with hsame | ⟨_, _, hsome⟩
        · exact .inr ⟨habove, hsame ▸ hnone, hdirectory⟩
        · simp [hnone] at hsome
    · cases h

theorem grown_of_createDirectories (hpath : path.Plain)
    (h : createDirectories path fs = .ok () fs') : Grown path fs fs' := by
  have hcreate : createDirectories path = (fun _ => ()) <$> path.foldlM enterNew [] := rfl
  rw [hcreate] at h
  simp only [Functor.map, EStateM.map] at h
  split at h
  · next hnames =>
    cases h
    exact grown_of_foldlM hpath hnames
  · cases h

/-- A directory stands at the path, or its name is not too long for one to be created there. -/
def Passable (fs : Files) (path : Path) : Prop :=
  fs.nodeAt? path = some .directory ∨
    fs.nodeAt? path = none ∧ (path.getLast?.getD []).length ≤ nameLimit

theorem enterNew_of_passable (hname : name ≠ [] ∧ name ≠ here ∧ name ≠ parent)
    (h : fs.Passable (path ++ [name])) : ∃ fs', enterNew path name fs = .ok (path ++ [name]) fs' ∧
      fs'.nodeAt? (path ++ [name]) = some .directory := by
  rw [enterNew_of_name hname]
  rcases h with hdirectory | ⟨hnone, hshort⟩
  · rw [hdirectory]
    exact ⟨fs, rfl, hdirectory⟩
  · rw [List.getLast?_concat] at hshort
    rw [hnone]
    refine ⟨_, if_neg (Nat.not_lt.2 hshort), ?_⟩
    rw [nodeAt?_of_set rfl (by simp), if_pos rfl]

theorem passable_of_enterNew (hname : name ≠ [] ∧ name ≠ here ∧ name ≠ parent) {next : Path}
    (h : enterNew path name fs = .ok next fs') : fs.Passable (path ++ [name]) := by
  rw [enterNew_of_name hname] at h
  split at h
  · next hdirectory => exact .inl hdirectory
  · cases h
  · next hnone =>
    split at h
    · cases h
    · next hshort =>
      refine .inr ⟨hnone, ?_⟩
      rw [List.getLast?_concat]
      exact Nat.not_lt.1 hshort

/-- Further down, what is created on the way makes no difference. -/
theorem Grown.passable_iff (h : Grown path fs fs') (hother : ¬ other <+: path) :
    fs'.Passable other ↔ fs.Passable other := by
  have hsame := (h.nodeAt? other).resolve_right fun hnew => hother hnew.1
  rw [Passable, Passable, hsame]

/-- Names lead on from a path exactly if each stands for a directory or for nothing yet. -/
theorem exists_foldlM_iff {names : List Bytes} (hnames : Path.Plain names) :
    (∃ last fs', names.foldlM enterNew path fs = .ok last fs') ↔
      ∀ more, more <+: names → more ≠ [] → fs.Passable (path ++ more) := by
  induction names generalizing path fs with
  | nil =>
    refine ⟨fun _ more hmore hne => ?_, fun _ => ⟨path, fs, rfl⟩⟩
    exact absurd (List.prefix_nil.1 hmore) hne
  | cons name names ih =>
    obtain ⟨hname, hbehind⟩ := List.forall_mem_cons.1 hnames
    have hfold (next : Path) (middle : Files) (hnext : enterNew path name fs = .ok next middle) :
        (name :: names).foldlM enterNew path fs = names.foldlM enterNew next middle := by
      simp only [List.foldlM_cons, bind, EStateM.bind, hnext]
    -- What is created for the first name stands above all that the others lead to.
    have hdeeper (middle : Files) (more : List Bytes) (hne : more ≠ [])
        (hgrown : Grown (path ++ [name]) fs middle) :
        middle.Passable (path ++ [name] ++ more) ↔ fs.Passable (path ++ [name] ++ more) := by
      refine hgrown.passable_iff fun habove => hne ?_
      have hlength := habove.length_le
      simpa using hlength
    constructor
    · rintro ⟨last, fs', h⟩ more hmore hne
      cases hnext : enterNew path name fs with
      | error fault middle => simp [List.foldlM_cons, bind, EStateM.bind, hnext] at h
      | ok next middle =>
        obtain ⟨rfl, hgrown⟩ := grown_of_enterNew hname hnext
        rw [hfold _ _ hnext] at h
        obtain _ | ⟨first, more⟩ := more
        · exact absurd rfl hne
        obtain ⟨rfl, hdeep⟩ := List.cons_prefix_cons.1 hmore
        rw [List.append_cons]
        by_cases hend : more = []
        · rw [hend, List.append_nil]
          exact passable_of_enterNew hname hnext
        · exact (hdeeper middle more hend hgrown).1 ((ih hbehind).1 ⟨last, fs', h⟩ more hdeep hend)
    · intro h
      have hfirst : fs.Passable (path ++ [name]) := h [name] (by simp) (by simp)
      obtain ⟨middle, hnext, _⟩ := enterNew_of_passable hname hfirst
      rw [hfold _ _ hnext]
      refine (ih hbehind).2 fun more hmore hend => ?_
      refine (hdeeper middle more hend (grown_of_enterNew hname hnext).2).2 ?_
      rw [← List.append_cons]
      exact h (name :: more) (List.cons_prefix_cons.2 ⟨rfl, hmore⟩) (by simp)

/-- Where names lead to, there is a directory then. -/
theorem directory_of_foldlM {names : List Bytes} (hnames : Path.Plain names)
    (hne : names ≠ []) {last : Path} (h : names.foldlM enterNew path fs = .ok last fs') :
    fs'.nodeAt? (path ++ names) = some .directory := by
  induction names generalizing path fs with
  | nil => exact absurd rfl hne
  | cons name names ih =>
    obtain ⟨hname, hbehind⟩ := List.forall_mem_cons.1 hnames
    have hfirst : fs.Passable (path ++ [name]) :=
      (exists_foldlM_iff hnames).1 ⟨last, fs', h⟩ [name] (by simp) (by simp)
    obtain ⟨middle, hnext, hdirectory⟩ := enterNew_of_passable hname hfirst
    simp only [List.foldlM_cons, bind, EStateM.bind, hnext] at h
    by_cases hend : names = []
    · subst hend
      cases h
      exact hdirectory
    · rw [List.append_cons]
      exact ih hbehind hend h

theorem exists_createDirectories_iff (hpath : path.Plain) :
    (∃ fs', createDirectories path fs = .ok () fs') ↔
      ∀ above, above <+: path → above ≠ [] → fs.Passable above := by
  have hnames : (∃ last fs', path.foldlM enterNew [] fs = .ok last fs') ↔
      ∀ above, above <+: path → above ≠ [] → fs.Passable above := exists_foldlM_iff hpath
  have hcreate : createDirectories path = (fun _ => ()) <$> path.foldlM enterNew [] := rfl
  rw [← hnames, hcreate]
  simp only [Functor.map, EStateM.map]
  cases path.foldlM enterNew [] fs <;> simp

theorem directory_of_createDirectories (hpath : path.Plain)
    (h : createDirectories path fs = .ok () fs') : fs'.nodeAt? path = some .directory := by
  have hcreate : createDirectories path = (fun _ => ()) <$> path.foldlM enterNew [] := rfl
  rw [hcreate] at h
  simp only [Functor.map, EStateM.map] at h
  split at h
  · next hnames =>
    cases h
    by_cases hne : path = []
    · simp [nodeAt?, hne]
    · exact directory_of_foldlM hpath hne hnames
  · cases h

/-- A file that is opened where nothing stood. -/
theorem openEmpty?_new (hnone : fs.nodeAt? path = none)
    (h : fs.openEmpty? path = some (serial, fs')) :
    serial = fs.nextSerial ∧ fs'.nextSerial = fs.nextSerial + 1 ∧
      ∀ other, fs'.nodeAt? other =
        if other = path then some (.file serial []) else fs.nodeAt? other := by
  have hne : path ≠ [] := by
    rintro rfl
    simp [nodeAt?] at hnone
  unfold openEmpty? at h
  split at h
  · cases h
  · rw [hnone] at h
    cases h
    exact ⟨rfl, rfl, nodeAt?_of_set rfl hne⟩

theorem Numbered.openEmpty? (h : fs.Numbered) (hnone : fs.nodeAt? path = none)
    (hopen : fs.openEmpty? path = some (serial, fs')) : fs'.Numbered := by
  obtain ⟨rfl, hnext, hnode⟩ := openEmpty?_new hnone hopen
  refine ⟨fun hfile => ?_, fun hfile hother => ?_⟩
  · rw [hnode] at hfile
    split at hfile
    · cases hfile
      omega
    · have hlt := h.lt_next hfile
      omega
  · rw [hnode] at hfile hother
    split at hfile <;> split at hother
    · next heq heq' => rw [heq, heq']
    · cases hfile
      exact absurd (h.lt_next hother) (Nat.lt_irrefl _)
    · cases hother
      exact absurd (h.lt_next hfile) (Nat.lt_irrefl _)
    · exact h.unique hfile hother

/-! ## Writing -/

@[simp] theorem overwrite_end (content data : Bytes) :
    overwrite content content.length data = content ++ data := by
  simp [overwrite]

/-- What writing to the file with a serial number makes of a node. -/
def overwritten (serial offset : Nat) (data : Bytes) : Node → Node
  | .file s content => .file s (if s = serial then overwrite content offset data else content)
  | .directory => .directory

theorem nodeAt?_writeAt (serial offset : Nat) (data : Bytes) (path : Path) :
    (fs.writeAt serial offset data).nodeAt? path =
      (fs.nodeAt? path).map (overwritten serial offset data) := by
  have hnodes : (fs.writeAt serial offset data).nodes =
      fs.nodes.map fun entry => (entry.1, overwritten serial offset data entry.2) := by
    refine List.map_congr_left fun entry _ => ?_
    rcases entry with ⟨path, _ | ⟨s, content⟩⟩
    · rfl
    · by_cases hs : s = serial <;> simp [hs, overwritten]
  by_cases hpath : path = []
  · simp [nodeAt?, hpath, overwritten]
  · simp only [nodeAt?, hpath, if_false, hnodes]
    exact Assoc.lookup_map_values _ _ _

theorem nodeAt?_append_self (h : fs.nodeAt? path = some (.file serial content)) (data : Bytes) :
    (fs.writeAt serial content.length data).nodeAt? path =
      some (.file serial (content ++ data)) := by
  simp [nodeAt?_writeAt, h, overwritten]

theorem nodeAt?_writeAt_of_ne (hfs : fs.Numbered)
    (h : fs.nodeAt? path = some (.file serial content)) (hne : other ≠ path) (offset : Nat)
    (data : Bytes) : (fs.writeAt serial offset data).nodeAt? other = fs.nodeAt? other := by
  rw [nodeAt?_writeAt]
  cases hnode : fs.nodeAt? other with
  | none => rfl
  | some node =>
    cases node with
    | directory => rfl
    | file s content' =>
      have hs : s ≠ serial := by
        rintro rfl
        exact hne (hfs.unique hnode h)
      simp [hs, overwritten]

theorem Numbered.writeAt (h : fs.Numbered) (serial offset : Nat) (data : Bytes) :
    (fs.writeAt serial offset data).Numbered := by
  refine h.of_origin (Nat.le_refl _) id (fun _ _ => id) fun hfile => ?_
  rw [nodeAt?_writeAt, Option.map_eq_some_iff] at hfile
  obtain ⟨node, hnode, heq⟩ := hfile
  cases node with
  | directory => cases heq
  | file s content' =>
    cases heq
    exact ⟨content', hnode⟩

/-! ## Taking away and moving -/

theorem isAbove_iff {upper lower : Path} : isAbove upper lower = true ↔ upper <+: lower :=
  List.isPrefixOf_iff_prefix

@[simp] theorem isAbove_self (path : Path) : isAbove path path = true :=
  isAbove_iff.2 List.prefix_rfl

theorem nodeAt?_removeAll (hne : path ≠ []) (other : Path) :
    (fs.removeAll path).nodeAt? other =
      if isAbove path other then none else fs.nodeAt? other := by
  by_cases hother : other = []
  · subst hother
    have habove : isAbove path [] = false := by simpa [← Bool.not_eq_true, isAbove_iff] using hne
    simp [nodeAt?, habove]
  · have hfilter := Assoc.lookup_filter_keys (fun p => !isAbove path p) fs.nodes other
    simp only [nodeAt?, hother, if_false, removeAll]
    refine hfilter.trans ?_
    cases isAbove path other <;> rfl

/-- What stands at or below a bare path stands at it. -/
theorem Bare.eq_of_above (hbare : fs.Bare path) (habove : isAbove path other = true)
    (hother : fs.nodeAt? other ≠ none) : other = path := by
  obtain ⟨rest, rfl⟩ := isAbove_iff.1 habove
  by_cases hrest : rest = []
  · simp [hrest]
  · exact absurd (hbare rest hrest) hother

theorem nodeAt?_remove (h : fs.nodeAt? path = some (.file serial content)) (hbare : fs.Bare path)
    (other : Path) :
    (fs.remove path).nodeAt? other = if other = path then none else fs.nodeAt? other := by
  have hne : path ≠ [] := by
    rintro rfl
    simp [nodeAt?] at h
  have hremove : fs.remove path = fs.removeAll path := by simp [remove, h]
  rw [hremove, nodeAt?_removeAll hne]
  by_cases hother : other = path
  · simp [hother]
  · rw [if_neg hother]
    by_cases habove : isAbove path other
    · rw [if_pos habove]
      cases hnode : fs.nodeAt? other with
      | none => rfl
      | some node => exact absurd (hbare.eq_of_above habove (by simp [hnode])) hother
    · rw [if_neg habove]

theorem Numbered.remove (h : fs.Numbered) (path : Path) (hbare : fs.Bare path)
    (hfile : fs.nodeAt? path = some (.file serial content)) : (fs.remove path).Numbered := by
  refine h.of_origin ?_ id (fun _ _ => id) fun hother => ?_
  · simp [Files.remove, hfile, removeAll]
  · rw [nodeAt?_remove hfile hbare] at hother
    split at hother
    · cases hother
    · exact ⟨_, hother⟩

theorem nodeAt?_of_mem {entry : Path × Node} (h : entry ∈ fs.nodes) :
    fs.nodeAt? entry.1 ≠ none := by
  unfold nodeAt?
  split
  · simp
  · intro hnone
    have hne := List.lookup_eq_none_iff.1 hnone entry h
    simp at hne

theorem nodeAt?_of_map_keys {f : Path → Path} {origin : Path} (horigin : origin ≠ [])
    (hother : other ≠ []) (hnodes : fs'.nodes = fs.nodes.map fun entry => (f entry.1, entry.2))
    (h : ∀ entry ∈ fs.nodes, f entry.1 = other ↔ entry.1 = origin) :
    fs'.nodeAt? other = fs.nodeAt? origin := by
  simp only [nodeAt?, horigin, hother, if_false, hnodes]
  exact Assoc.lookup_map_keys h

/-- The path of what stood at or below a path that was moved. -/
def renamed (source target path : Path) : Path :=
  if isAbove source path then target ++ path.drop source.length else path

theorem eq_of_move {source target : Path} (h : fs.nodeAt? source = some (.file serial content))
    (hmove : fs.move source target = .ok fs') : fs' = { fs.removeAll target with
      nodes := (fs.removeAll target).nodes.map fun entry =>
        (renamed source target entry.1, entry.2) } := by
  unfold move at hmove
  cases hsource : source.foldlM fs.enter [] with
  | error fault => simp [hsource] at hmove
  | ok path =>
    rcases htarget : fs.nodeAt? target with _ | _ | _ <;> simp [hsource, h, htarget] at hmove <;>
      exact hmove.symm

/-- A bare path that is moved is all that is renamed. -/
theorem renamed_of_mem {source target : Path} (hsource : fs.Bare source) {entry : Path × Node}
    (hentry : entry ∈ (fs.removeAll target).nodes) : entry.1 ≠ target ∧
      renamed source target entry.1 = if entry.1 = source then target else entry.1 := by
  obtain ⟨hold, hkept⟩ := List.mem_filter.1 hentry
  refine ⟨?_, ?_⟩
  · intro heq
    simp [heq] at hkept
  · unfold renamed
    by_cases habove : isAbove source entry.1
    · have heq := hsource.eq_of_above habove (nodeAt?_of_mem hold)
      simp [heq]
    · have hne : entry.1 ≠ source := by
        intro heq
        simp [heq] at habove
      rw [if_neg habove, if_neg hne]

/-- A file that is moved to a place where at most a file stood. -/
theorem nodeAt?_move {source target : Path}
    (h : fs.nodeAt? source = some (.file serial content)) (hsource : fs.Bare source)
    (htarget : fs.Bare target) (hne : source ≠ target) (hroot : target ≠ [])
    (hmove : fs.move source target = .ok fs') (other : Path) :
    fs'.nodeAt? other =
      if other = target then some (.file serial content)
      else if other = source then none
      else fs.nodeAt? other := by
  have hroot' : source ≠ [] := by
    rintro rfl
    simp [nodeAt?] at h
  have hremoved (place : Path) : (fs.removeAll target).nodeAt? place =
      if isAbove target place then none else fs.nodeAt? place := nodeAt?_removeAll hroot place
  have hnodes := congrArg Files.nodes (eq_of_move h hmove)
  by_cases hother : other = []
  · subst hother
    simp [nodeAt?, hroot.symm, hroot'.symm]
  by_cases heq : other = target
  · have hkept : isAbove target source ≠ true := fun habove =>
      hne (htarget.eq_of_above habove (by simp [h]))
    rw [if_pos heq, nodeAt?_of_map_keys hroot' hother hnodes, hremoved, if_neg hkept, h]
    intro entry hentry
    obtain ⟨hfree, hrename⟩ := renamed_of_mem hsource hentry
    rw [hrename, heq]
    split
    · next hmoved => simp [hmoved]
    · next hkept => simp [hfree, hkept]
  by_cases heq' : other = source
  · rw [if_neg heq, if_pos heq', nodeAt?_of_map_keys hroot hother hnodes, hremoved,
      if_pos (isAbove_self target)]
    intro entry hentry
    obtain ⟨hfree, hrename⟩ := renamed_of_mem hsource hentry
    rw [hrename, heq']
    split
    · simp [hfree, hne.symm]
    · next hkept => simp [hfree, hkept]
  · rw [if_neg heq, if_neg heq', nodeAt?_of_map_keys hother hother hnodes, hremoved]
    · by_cases habove : isAbove target other
      · rw [if_pos habove]
        cases hnode : fs.nodeAt? other with
        | none => rfl
        | some node => exact absurd (htarget.eq_of_above habove (by simp [hnode])) heq
      · rw [if_neg habove]
    · intro entry hentry
      obtain ⟨_, hrename⟩ := renamed_of_mem hsource hentry
      rw [hrename]
      split
      · next hmoved => simp [hmoved, Ne.symm heq, Ne.symm heq']
      · rfl

theorem Numbered.move (hfs : fs.Numbered) {source target : Path}
    (h : fs.nodeAt? source = some (.file serial content)) (hsource : fs.Bare source)
    (htarget : fs.Bare target) (hne : source ≠ target) (hroot : target ≠ [])
    (hmove : fs.move source target = .ok fs') : fs'.Numbered := by
  have hnode := nodeAt?_move h hsource htarget hne hroot hmove
  have hnext : fs'.nextSerial = fs.nextSerial := by
    rw [eq_of_move h hmove]
    rfl
  refine hfs.of_origin (Nat.le_of_eq hnext.symm) (fun path => if path = target then source else path)
    (fun {path other} hpath hother heq => ?_) (fun {path serial content} hfile => ?_)
  · have hgone : (fs'.nodeAt? source).isSome = false := by simp [hnode, hne]
    split at heq <;> split at heq
    · next htarget htarget' => rw [htarget, htarget']
    · rw [← heq, hgone] at hother
      cases hother
    · rw [heq, hgone] at hpath
      cases hpath
    · exact heq
  · rw [hnode] at hfile
    split
    · next htarget =>
      rw [if_pos htarget] at hfile
      cases hfile
      exact ⟨_, h⟩
    · next htarget =>
      rw [if_neg htarget] at hfile
      split at hfile
      · cases hfile
      · exact ⟨_, hfile⟩

/-! ## Following path texts -/

theorem plain_append (hpath : path.Plain) (hname : ¬(name = [] ∨ name = here))
    (hparent : name ≠ parent) : Path.Plain (path ++ [name]) := by
  rw [not_or] at hname
  exact List.forall_mem_append.2 ⟨hpath, List.forall_mem_singleton.2 ⟨hname.1, hname.2, hparent⟩⟩

theorem plain_dropLast (hpath : path.Plain) : Path.Plain path.dropLast :=
  fun name hname => hpath name (List.dropLast_subset path hname)

theorem plain_of_enter (hpath : path.Plain) {next : Path} (h : fs.enter path name = .ok next) :
    next.Plain := by
  unfold enter at h
  split at h
  · cases h
  · cases h
  · split at h
    · cases h
      exact hpath
    · next hname =>
      split at h
      · cases h
        exact plain_dropLast hpath
      · next hparent =>
        split at h
        · cases h
        · cases h
          exact plain_append hpath hname hparent

theorem plain_of_enterNew (hpath : path.Plain) {next : Path}
    (h : enterNew path name fs = .ok next fs') : next.Plain := by
  by_cases hname : name = [] ∨ name = here
  · rw [enterNew, if_pos hname] at h
    cases h
    exact hpath
  · by_cases hparent : name = parent
    · rw [enterNew, if_neg hname, if_pos hparent] at h
      cases h
      exact plain_dropLast hpath
    · obtain ⟨rfl, _⟩ := grown_of_enterNew ⟨(not_or.1 hname).1, (not_or.1 hname).2, hparent⟩ h
      exact plain_append hpath hname hparent

theorem plain_of_start (hplain : ∀ path, fs.workingDirectory = some path → path.Plain)
    {text : Bytes} {names : List Bytes} (h : fs.start text = .ok (path, names)) : path.Plain := by
  unfold start at h
  dsimp only at h
  split at h
  · cases h
  · split at h
    · cases h
    · split at h
      · cases h
        exact nofun
      · split at h
        · cases h
        · next path' hdirectory =>
          cases h
          exact hplain _ hdirectory

theorem plain_of_foldlM_enter {names : List Bytes} (hpath : path.Plain) {last : Path}
    (h : names.foldlM fs.enter path = .ok last) : last.Plain := by
  induction names generalizing path with
  | nil =>
    cases h
    exact hpath
  | cons name names ih =>
    rw [List.foldlM_cons] at h
    cases hnext : fs.enter path name with
    | error fault => simp [hnext, bind, Except.bind] at h
    | ok next =>
      simp only [hnext, bind, Except.bind] at h
      exact ih (plain_of_enter hpath hnext) h

theorem plain_of_foldlM_enterNew {names : List Bytes} (hpath : path.Plain) {last : Path}
    (h : names.foldlM enterNew path fs = .ok last fs') : last.Plain := by
  induction names generalizing path fs with
  | nil =>
    cases h
    exact hpath
  | cons name names ih =>
    rw [List.foldlM_cons] at h
    simp only [bind, EStateM.bind] at h
    split at h
    · next hnext => exact ih (plain_of_enterNew hpath hnext) h
    · cases h

/-- A path text leads to a plain path if the working directory is one. -/
theorem plain_of_resolve (hplain : ∀ path, fs.workingDirectory = some path → path.Plain)
    {text : Bytes} (h : fs.resolve text = .ok path) : path.Plain := by
  unfold resolve at h
  cases hstart : fs.start text with
  | error fault => simp [hstart, bind, Except.bind] at h
  | ok place =>
    simp only [hstart, bind, Except.bind] at h
    exact plain_of_foldlM_enter (plain_of_start hplain hstart) h

theorem plain_of_createNamed (hplain : ∀ path, fs.workingDirectory = some path → path.Plain)
    {text : Bytes} (h : createNamed text fs = .ok path fs') : path.Plain := by
  rw [createNamed, get_bind_apply] at h
  cases hstart : fs.start text with
  | error fault =>
    rw [hstart] at h
    cases h
  | ok place =>
    rw [hstart] at h
    dsimp only at h
    rw [get_bind_apply] at h
    split at h
    · cases h
    · exact plain_of_foldlM_enterNew (plain_of_start hplain hstart) h

end Files

end Gntp
