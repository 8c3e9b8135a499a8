import ClassSchema.Proofs.Files.Path
import ClassSchema.Store.Persist

/-!
# Names of artifact files

The file of an artifact tells its name, and it is none of the other files of a schema folder.
-/

namespace ClassSchema.Artifact

theorem fileName_inj {a b : String} (h : fileName a = fileName b) : a = b := by
  simpa [fileName] using h

theorem toList_fileName (name : String) :
    (fileName name).toList = name.toList ++ ".graphql".toList := by
  simp [fileName, extension]

theorem fileName_ne {name file : String} (h : file.toList.getLast? ≠ some 'l') :
    fileName name ≠ file := by
  rintro rfl
  rw [toList_fileName] at h
  exact h (by simp)

theorem fileName_ne_manifest (name : String) : fileName name ≠ Manifest.fileName :=
  fileName_ne (by decide)

theorem fileName_ne_sentinel (name : String) : ∀ f ∈ sentinels, fileName name ≠ f.1 := by
  have h : ∀ f ∈ sentinels, f.1.toList.getLast? ≠ some 'l' := by decide
  exact fun f hf => fileName_ne (h f hf)

theorem ne_of_extension {file : String} (h : Path.extension? file = some extension) :
    file ≠ Manifest.fileName ∧ ∀ f ∈ sentinels, file ≠ f.1 := by
  have hmanifest : Path.extension? Manifest.fileName ≠ some extension := by decide +kernel
  have hsentinels : ∀ f ∈ sentinels, Path.extension? f.1 ≠ some extension := by decide +kernel
  refine ⟨?_, fun f hf => ?_⟩
  · rintro rfl
    exact hmanifest h
  · rintro rfl
    exact hsentinels f hf h

theorem isNameChar_of_isNameStart {c : Char} (h : isNameStart c = true) : isNameChar c = true := by
  simp only [isNameStart, isNameChar, Char.isAlphanum, Bool.or_eq_true] at h ⊢
  rcases h with h | h
  · exact .inl h
  · exact .inr (.inl h)

theorem isNameChar_of_isGraphName {name : String} (h : isGraphName name = true) :
    name.toList ≠ [] ∧ ∀ c ∈ name.toList, isNameChar c = true := by
  rw [isGraphName] at h
  split at h
  · cases h
  · next c cs hname =>
    rw [Bool.and_eq_true, List.all_eq_true] at h
    obtain ⟨hstart, hrest⟩ := h
    rw [hname]
    refine ⟨by simp, fun d hd => ?_⟩
    rcases List.mem_cons.mp hd with rfl | hd
    · exact isNameChar_of_isNameStart hstart
    · exact hrest d hd

theorem not_mem_of_isGraphName {name : String} (h : isGraphName name = true) {c : Char}
    (hc : isNameChar c = false) : c ∉ name.toList := by
  intro hmem
  rw [(isNameChar_of_isGraphName h).2 c hmem] at hc
  cases hc

private theorem ending_eq : ("." ++ extension).toList.reverse = ".graphql".toList.reverse := by decide

private theorem isPrefixOf_ending_iff (name : List Char) :
    (".graphql".toList.reverse).isPrefixOf name.reverse = true ↔ ".graphql".toList <:+ name := by
  rw [List.isPrefixOf_iff_prefix, List.reverse_prefix]

theorem artifactName_of_not_suffix {name : String} (h : ¬ ".graphql".toList <:+ name.toList) :
    Store.artifactName (fileName name) = name := by
  have hstop : (".graphql".toList.reverse).isPrefixOf name.toList.reverse = false := by
    rw [← Bool.not_eq_true, isPrefixOf_ending_iff]
    exact h
  have hrest (n : Nat) : Store.artifactName.strip ".graphql".toList.reverse n name.toList.reverse =
      name.toList.reverse := by
    cases n with
    | zero => rfl
    | succ n => rw [Store.artifactName.strip, hstop]; rfl
  have hback : (fileName name).toList.reverse = ".graphql".toList.reverse ++ name.toList.reverse := by
    rw [toList_fileName, List.reverse_append]
  have hlength : (fileName name).length = (name.length + 7) + 1 := by
    rw [← String.length_toList, toList_fileName, List.length_append, String.length_toList]
    rfl
  have hprefix : (".graphql".toList.reverse).isPrefixOf
      (".graphql".toList.reverse ++ name.toList.reverse) = true :=
    List.isPrefixOf_iff_prefix.mpr (List.prefix_append _ _)
  have hstrip : Store.artifactName.strip ".graphql".toList.reverse (fileName name).length
      (fileName name).toList.reverse = name.toList.reverse := by
    rw [hlength, hback, Store.artifactName.strip, if_pos hprefix, List.drop_left, hrest]
  rw [Store.artifactName, ending_eq, hstrip, List.reverse_reverse, String.ofList_toList]

theorem artifactName_fileName {name : String} (h : isGraphName name = true) :
    Store.artifactName (fileName name) = name := by
  apply artifactName_of_not_suffix
  intro hsuffix
  exact not_mem_of_isGraphName h (by decide) (hsuffix.subset (a := '.') (by decide))

private theorem not_isPrefixOf_strip (n : Nat) (s : List Char) (h : s.length ≤ n) :
    (".graphql".toList.reverse).isPrefixOf
      (Store.artifactName.strip ".graphql".toList.reverse n s) = false := by
  induction n generalizing s with
  | zero =>
    obtain rfl : s = [] := List.eq_nil_of_length_eq_zero (Nat.le_zero.mp h)
    rfl
  | succ n ih =>
    rw [Store.artifactName.strip]
    split
    · apply ih
      rw [List.length_drop]
      have hlength : ".graphql".toList.reverse.length = 8 := by decide
      omega
    · next hstop => exact Bool.eq_false_iff.mpr hstop

/-- Endings are dropped as often as they stand there. -/
theorem not_suffix_artifactName (file : String) :
    ¬ ".graphql".toList <:+ (Store.artifactName file).toList := by
  have hback : (Store.artifactName file).toList.reverse =
      Store.artifactName.strip ".graphql".toList.reverse file.length file.toList.reverse := by
    rw [Store.artifactName, ending_eq, String.toList_ofList, List.reverse_reverse]
  rw [← isPrefixOf_ending_iff, Bool.not_eq_true, hback]
  have hlength : file.toList.reverse.length = file.length := by
    rw [List.length_reverse, String.length_toList]
  exact not_isPrefixOf_strip _ _ (Nat.le_of_eq hlength)

theorem suffix_iff_exists_fileName {name : String} :
    ".graphql".toList <:+ name.toList ↔ ∃ stem, name = fileName stem := by
  constructor
  · intro hsuffix
    obtain ⟨stem, hstem⟩ := hsuffix
    refine ⟨String.ofList stem, String.toList_inj.mp ?_⟩
    rw [toList_fileName, String.toList_ofList, hstem]
  · intro hname
    obtain ⟨stem, rfl⟩ := hname
    rw [toList_fileName]
    exact List.suffix_append _ _

theorem slash_not_mem_fileName {name : String} (h : isGraphName name = true) :
    '/' ∉ (fileName name).toList := by
  have hname : '/' ∉ name.toList := not_mem_of_isGraphName h (by decide)
  have hending : '/' ∉ ".graphql".toList := by decide
  rw [toList_fileName, List.mem_append]
  exact not_or.mpr ⟨hname, hending⟩

private theorem splitExtension_fileName {name : String} (h : name.toList ≠ []) :
    Path.splitExtension (fileName name) = (name, some extension) := by
  have hback : (fileName name).toList.reverse =
      extension.toList.reverse ++ '.' :: name.toList.reverse := by
    rw [toList_fileName, List.reverse_append]
    rfl
  have hplain : ∀ c ∈ extension.toList.reverse, (c ≠ '.' : Bool) = true :=
    List.all_eq_true.mp (by decide)
  have hname : name ≠ "" := by simpa using h
  rw [Path.splitExtension, hback, List.takeWhile_append_of_pos hplain,
    List.dropWhile_append_of_pos hplain]
  simp [hname]

theorem extension?_fileName {name : String} (h : isGraphName name = true) :
    Path.extension? (fileName name) = some extension := by
  have hne : fileName name ≠ "" := fileName_ne (by decide)
  have hup : fileName name ≠ ".." := fileName_ne (by decide)
  have hhere : fileName name ≠ "." := fileName_ne (by decide)
  have hplain : Path.isPlainName (fileName name) = true := by
    simp [Path.isPlainName, hne, hhere, hup, slash_not_mem_fileName h]
  rw [Path.extension?, Path.fileName?_of_plain hplain, Option.bind_some,
    splitExtension_fileName (isNameChar_of_isGraphName h).1]

theorem exists_stem {file : String} (hplain : Path.isPlainName file = true)
    (h : Path.extension? file = some extension) :
    ∃ stem, file = fileName stem ∧ Path.stem? file = some stem := by
  rw [Path.extension?, Path.fileName?_of_plain hplain, Option.bind_some] at h
  have hsplit := h
  rw [Path.splitExtension] at hsplit
  split at hsplit
  · next stem hstem =>
    split at hsplit
    · cases hsplit
    · next hne =>
      have htail : file.toList.reverse.takeWhile (· ≠ '.') = extension.toList.reverse := by
        have hofList := congrArg String.toList (Option.some.inj hsplit)
        rw [String.toList_ofList] at hofList
        rw [← hofList, List.reverse_reverse]
      have hfile : file = fileName (String.ofList stem.reverse) := by
        have hback := List.takeWhile_append_dropWhile (p := (· ≠ '.')) (l := file.toList.reverse)
        rw [htail, hstem] at hback
        have hchars := congrArg List.reverse hback
        rw [List.reverse_reverse] at hchars
        rw [← String.toList_inj, toList_fileName, String.toList_ofList, ← hchars, List.reverse_append,
          List.reverse_cons, List.append_assoc, List.reverse_reverse]
        rfl
      refine ⟨String.ofList stem.reverse, hfile, ?_⟩
      have hnonempty : (String.ofList stem.reverse).toList ≠ [] := by
        simpa using hne
      rw [Path.stem?, Path.fileName?_of_plain hplain, Option.map_some, hfile,
        splitExtension_fileName hnonempty]
  · cases hsplit

end ClassSchema.Artifact
