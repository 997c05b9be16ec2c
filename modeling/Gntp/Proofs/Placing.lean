import Mathlib.Data.Set.Function
import Gntp.Proofs.FileTree
import Gntp.Proofs.Hexadecimal
import Gntp.Store

/-!
# Where payloads are placed on disk

A payload has its place four names under the base directory, and its partial file stands beside it.
No two identifiers share a place unless their hashes are the same, no two numbers share a partial
file, and the name of a place never looks like that of a partial file.
-/

namespace Gntp

@[simp] theorem Digest.Sha256.length_hash (message : Bytes) : (hash message).length = 32 := by
  simp [hash, Words.bytes32]

namespace Decimal

theorem toNat_digit {n : Nat} (h : n < 10) : (digit n - 0x30).toNat = n := by
  have hall : ∀ k : Fin 10, (digit k - 0x30).toNat = k := by decide
  exact hall ⟨n, h⟩

@[simp] theorem value_ofNat (n : Nat) : value (ofNat n) = n := by
  fun_induction ofNat n with
  | case1 n h => simp [value, toNat_digit h]
  | case2 n h ih =>
    simp only [value] at ih ⊢
    rw [List.foldl_append, ih, List.foldl_cons, List.foldl_nil, toNat_digit (by omega)]
    omega

theorem ofNat_injective {m n : Nat} (h : ofNat m = ofNat n) : m = n := by
  simpa using congrArg value h

end Decimal

namespace Store.Disk

open Files

variable {d : Disk} {identifier other : Bytes} {number number' : Nat}

/-- The hexadecimal hash of an identifier. -/
def key (identifier : Bytes) : Bytes := Hex.encode (HashAlgorithm.sha256.hash identifier)

theorem hashKey_eq {suite : Suite} (h : suite.digest .sha256 = some HashAlgorithm.sha256.hash)
    (identifier : Bytes) : hashKey suite identifier = .ok (key identifier) := by
  simp [hashKey, h, key]

@[simp] theorem length_key (identifier : Bytes) : (key identifier).length = 64 := by
  simp [key, HashAlgorithm.hash]

theorem dot_notMem_key (identifier : Bytes) : 0x2e ∉ key identifier := by
  intro hmem
  have hdigit := Hex.isSome_digitValue?_of_mem_encode hmem
  revert hdigit
  decide

theorem hash_eq_of_key (h : key identifier = key other) :
    HashAlgorithm.sha256.hash identifier = HashAlgorithm.sha256.hash other :=
  Hex.encode_injective h

/-- The names of the directories that lead to a payload. -/
def directories (identifier : Bytes) : List Bytes :=
  [(key identifier).take 2, ((key identifier).drop 2).take 2, ((key identifier).drop 4).take 2]

/-- The place of a payload. -/
def place (d : Disk) (identifier : Bytes) : Path := d.root ++ namesOf (key identifier)

/-- The place of a partial file. -/
def partPlace (d : Disk) (identifier : Bytes) (number : Nat) : Path :=
  partPath (d.place identifier) number

theorem place_eq (d : Disk) (identifier : Bytes) :
    d.place identifier = d.root ++ (directories identifier ++ [(key identifier).drop 6]) := rfl

theorem dropLast_place (d : Disk) (identifier : Bytes) :
    (d.place identifier).dropLast = d.root ++ directories identifier := by
  rw [place_eq, ← List.append_assoc, List.dropLast_concat]

theorem partPlace_eq (d : Disk) (identifier : Bytes) (number : Nat) :
    d.partPlace identifier number = d.root ++
      (directories identifier ++ [(key identifier).drop 6 ++ partSuffix number]) := by
  rw [partPlace, partPath, dropLast_place, place_eq, ← List.append_assoc, List.getLast?_concat]
  simp

@[simp] theorem length_directories (identifier : Bytes) : (directories identifier).length = 3 := rfl

theorem place_ne_nil (d : Disk) (identifier : Bytes) : d.place identifier ≠ [] := by
  simp [place_eq]

theorem key_of_place (h : d.place identifier = d.place other) : key identifier = key other := by
  have hnames : namesOf (key identifier) = namesOf (key other) := List.append_cancel_left h
  have hflatten : ∀ hash : Bytes, (namesOf hash).flatten = hash := by
    intro hash
    have hdrop : ∀ n, (hash.drop n).take 2 ++ hash.drop (n + 2) = hash.drop n := by
      intro n
      rw [← List.drop_drop, List.take_append_drop]
    simp [namesOf, hdrop]
  rw [← hflatten (key identifier), ← hflatten (key other), hnames]

theorem lastName_of_partPlace
    (h : d.partPlace identifier number = d.partPlace other number') :
    (key identifier).drop 6 ++ partSuffix number = (key other).drop 6 ++ partSuffix number' := by
  rw [partPlace_eq, partPlace_eq, ← List.append_assoc, ← List.append_assoc] at h
  simpa using (List.append_inj' h rfl).2

theorem number_of_partPlace (h : d.partPlace identifier number = d.partPlace other number') :
    number = number' := by
  have hsuffix := (List.append_inj (lastName_of_partPlace h) (by simp)).2
  simp only [partSuffix, List.append_assoc] at hsuffix
  exact Decimal.ofNat_injective (List.append_cancel_right (List.append_cancel_left hsuffix))

/-! ## Partial files by their names -/

/-- The path ends like that of a partial file. -/
def Partial (path : Path) : Prop := ascii ".part" <:+ path.getLast?.getD []

theorem partial_partPlace (d : Disk) (identifier : Bytes) (number : Nat) :
    Partial (d.partPlace identifier number) := by
  rw [partPlace_eq, ← List.append_assoc, Partial, List.getLast?_concat]
  exact ⟨(key identifier).drop 6 ++ ascii "." ++ Decimal.ofNat number, by simp [partSuffix]⟩

theorem not_partial_place (d : Disk) (identifier : Bytes) : ¬ Partial (d.place identifier) := by
  rw [place_eq, ← List.append_assoc, Partial, List.getLast?_concat]
  intro hsuffix
  have hdot : 0x2e ∈ (key identifier).drop 6 := hsuffix.subset (by decide)
  exact dot_notMem_key identifier (List.mem_of_mem_drop hdot)

theorem place_ne_partPlace (d : Disk) (identifier other : Bytes) (number : Nat) :
    d.place identifier ≠ d.partPlace other number := by
  intro h
  have hpartial := partial_partPlace d other number
  rw [← h] at hpartial
  exact not_partial_place d identifier hpartial

/-! ## Plain paths -/

theorem plain_directories (identifier : Bytes) : Path.Plain (directories identifier) := by
  intro name hname
  have hlong : name.length = 2 := by
    simp only [directories, List.mem_cons, List.not_mem_nil, or_false] at hname
    rcases hname with rfl | rfl | rfl <;> simp
  have hdot : 0x2e ∉ name := by
    intro hmem
    refine dot_notMem_key identifier ?_
    simp only [directories, List.mem_cons, List.not_mem_nil, or_false] at hname
    rcases hname with rfl | rfl | rfl
    · exact List.mem_of_mem_take hmem
    · exact List.mem_of_mem_drop (List.mem_of_mem_take hmem)
    · exact List.mem_of_mem_drop (List.mem_of_mem_take hmem)
  refine ⟨?_, ?_, ?_⟩ <;> rintro rfl
  · simp at hlong
  · exact hdot (by decide)
  · exact hdot (by decide)

/-- A base directory that is there or was created has a plain path if the working directory has. -/
theorem plain_of_prepareBase {base : Bytes} {before files : Files} {root : Path}
    (hplain : ∀ path, before.workingDirectory = some path → path.Plain)
    (h : prepareBase base before = .ok root files) : root.Plain := by
  unfold prepareBase at h
  split at h
  · next hresolve _ =>
    cases h
    exact plain_of_resolve hplain hresolve
  · split at h
    · next hcreate =>
      cases h
      exact plain_of_createNamed hplain hcreate
    · cases h

end Store.Disk

end Gntp
