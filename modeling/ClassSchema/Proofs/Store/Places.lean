import ClassSchema.Proofs.Files.Moves
import ClassSchema.Store.Persist

/-!
# Where a schema is stored

The name of a schema is a path of its own. It leads from the root to the live folder, and with a dot before it
to the folder in which the others are made: the backup of the live folder, and those that new ones are staged
in. A plain name leads to entries of the root, any other name wherever its pieces go.
-/

namespace ClassSchema.Store

open FileTree ClassSchema.Path

/-- The place of the root folder. -/
def rootPlace (store : Store) : List String := arrival (pieces store.root) []

/-- The path of the root takes no detour. -/
def Straight (store : Store) : Prop := ∀ p ∈ walk (pieces store.root) [], p <+: store.rootPlace

/-- The place of a schema's live folder. -/
def livePlace (store : Store) (name : String) : List String := arrival (pieces (store.schemaPath name)) []

/-- The place of the old folder while the new one is swapped in. -/
def backupPlace (store : Store) (name : String) : List String :=
  arrival (pieces (store.backupPath name)) []

/-- The places on the way to the hidden folders of a schema, and to its live folder. -/
def ways (store : Store) (name : String) : List (List String) :=
  walk (above (store.backupPath name)) [] ++ walk (above (store.schemaPath name)) []

variable {store : Store} {name : String} {t : FileTree} {p : List String}

theorem exists_hidden (store : Store) (name : String) : ∃ last : String, ∀ ending : String,
    '/' ∉ ending.toList → 2 < ending.length →
      pieces (store.hiddenPath name ending) = above (store.backupPath name) ++ [last ++ ending] ∧
        Proper (last ++ ending) := by
  obtain ⟨lead, hlead, -, -⟩ := exists_pieces_join store.root
  obtain ⟨front, last, -, hmore⟩ := exists_pieces_concat ("." ++ name)
  have hpieces (ending : String) (hslash : '/' ∉ ending.toList) :
      pieces (store.hiddenPath name ending) = (lead ++ front) ++ [last ++ ending] := by
    rw [hiddenPath, hlead _ (by simp [isAbsolute]), hmore ending hslash, List.append_assoc]
  have hproper (ending : String) (hlong : 2 < ending.length) : Proper (last ++ ending) := by
    have hlength : 2 < (last ++ ending).length := by
      rw [String.length_append]
      omega
    have hne (short : String) (hshort : short.length ≤ 2) : last ++ ending ≠ short := by
      intro hsame
      rw [hsame] at hlength
      omega
    exact ⟨hne "" (by decide), hne "." (by decide), hne ".." (by decide)⟩
  have habove : above (store.backupPath name) = lead ++ front := by
    have hbackup := hpieces "-previous" (by decide)
    rw [above, backupPath, unslashed_of_pieces hbackup (hproper _ (by decide)).1, List.dropLast_concat]
  refine ⟨last, fun ending hslash hlong => ⟨?_, hproper ending hlong⟩⟩
  rw [habove]
  exact hpieces ending hslash

theorem exists_pieces_backupPath (store : Store) (name : String) : ∃ last,
    pieces (store.backupPath name) = above (store.backupPath name) ++ [last] ∧ Proper last := by
  obtain ⟨last, hlast⟩ := exists_hidden store name
  obtain ⟨hpieces, hproper⟩ := hlast "-previous" (by decide) (by decide)
  exact ⟨_, hpieces, hproper⟩

theorem endsInDots_backupPath (store : Store) (name : String) :
    endsInDots (store.backupPath name) = false := by
  obtain ⟨last, hpieces, hproper⟩ := exists_pieces_backupPath store name
  exact endsInDots_of_unslashed (unslashed_of_pieces hpieces hproper.1) hproper

theorem mem_walk_above_of_root (hp : p ∈ walk (pieces store.root) []) :
    p ∈ walk (above (store.backupPath name)) [] := by
  obtain ⟨lead, hlead, -, hwalk⟩ := exists_pieces_join store.root
  obtain ⟨front, last, -, hmore⟩ := exists_pieces_concat ("." ++ name)
  have hpieces : pieces (store.backupPath name) = (lead ++ front) ++ [last ++ "-previous"] := by
    rw [backupPath, hiddenPath, hlead _ (by simp [isAbsolute]), hmore _ (by decide), List.append_assoc]
  have hlong : (last ++ "-previous").length ≠ 0 := by
    rw [String.length_append]
    simp
  have hne : last ++ "-previous" ≠ "" := fun hempty => hlong (by rw [hempty]; rfl)
  rw [above, unslashed_of_pieces hpieces hne, List.dropLast_concat]
  exact mem_walk_append _ ((hwalk p).mpr hp)

/-- The path of a schema ends in a name and leads to the live folder from outside, through folders. -/
structure Located (store : Store) (name : String) (t : FileTree) : Prop where
  named : endsInDots (store.schemaPath name) = false
  folders : ∀ p ∈ walk (above (store.schemaPath name)) [],
    t.kindAt p = some true ∧ ¬ store.livePlace name <+: p

theorem Located.ne_nil (h : store.Located name t) : store.livePlace name ≠ [] := by
  obtain ⟨x, -, -, harrival⟩ := exists_arrival_eq h.named
  rw [livePlace, harrival]
  simp

theorem Located.locate? (h : store.Located name t) (hfolder : t.kindAt (store.livePlace name) = some true) :
    t.locate? (store.schemaPath name) = some (store.livePlace name) :=
  locate?_of_folder h.named (fun p hp => (h.folders p hp).1) hfolder

theorem Located.hasFolder (h : store.Located name t)
    (hfolder : t.kindAt (store.livePlace name) = some true) :
    t.hasFolder (store.schemaPath name) = true := by
  rw [FileTree.hasFolder, lookAt?, h.locate? hfolder]
  exact any_isFolder_iff.mpr hfolder

theorem Located.removeFolder (h : store.Located name t)
    (hfolder : t.kindAt (store.livePlace name) = some true) :
    t.removeFolder (store.schemaPath name) = (.ok (), t.remove (store.livePlace name)) :=
  removeFolder_of_walk h.named h.folders hfolder

/-! ### Plain names -/

theorem exists_above_of_plain (store : Store) (hplain : isPlainName name = true) : ∃ lead,
    unslashed (store.schemaPath name) = lead ++ [name] ∧
      unslashed (store.backupPath name) = lead ++ ["." ++ name ++ "-previous"] ∧
        arrival lead [] = store.rootPlace ∧ ∀ p, p ∈ walk lead [] ↔ p ∈ walk (pieces store.root) [] := by
  obtain ⟨⟨hempty, -, -⟩, hslash⟩ := isPlainName_iff.mp hplain
  obtain ⟨lead, hlead, harrival, hwalk⟩ := exists_pieces_join store.root
  have hhidden : '/' ∉ ("." ++ name ++ "-previous").toList := by simp [hslash]
  have hlong : ("." ++ name ++ "-previous").length ≠ 0 := by simp
  refine ⟨lead, unslashed_of_pieces ?_ hempty, unslashed_of_pieces ?_ ?_, harrival, hwalk⟩
  · rw [schemaPath, hlead name (isAbsolute_of_plain hplain), pieces_of_not_mem hslash]
  · rw [backupPath, hiddenPath, hlead _ (by simp [isAbsolute]), pieces_of_not_mem hhidden]
  · exact fun hnone => hlong (by rw [hnone]; rfl)

theorem endsInDots_of_plain (store : Store) (hplain : isPlainName name = true) :
    endsInDots (store.schemaPath name) = false := by
  obtain ⟨lead, hlive, -⟩ := exists_above_of_plain store hplain
  exact endsInDots_of_unslashed hlive (isPlainName_iff.mp hplain).1

theorem livePlace_of_plain (store : Store) (hplain : isPlainName name = true) :
    store.livePlace name = store.rootPlace ++ [name] := by
  obtain ⟨lead, hlive, -, harrival, -⟩ := exists_above_of_plain store hplain
  rw [livePlace, ← arrival_unslashed, hlive, arrival_append, harrival]
  exact step_of_proper (isPlainName_iff.mp hplain).1 _

theorem backupPlace_of_plain (store : Store) (hplain : isPlainName name = true) :
    store.backupPlace name = store.rootPlace ++ ["." ++ name ++ "-previous"] := by
  obtain ⟨lead, -, hbackup, harrival, -⟩ := exists_above_of_plain store hplain
  obtain ⟨last, hlast⟩ := exists_hidden store name
  obtain ⟨hpieces, hproper⟩ := hlast "-previous" (by decide) (by decide)
  have hsame : "." ++ name ++ "-previous" = last ++ "-previous" := by
    have hunslashed := (unslashed_of_pieces hpieces hproper.1).symm.trans hbackup
    obtain ⟨-, hsame⟩ := List.append_inj' hunslashed rfl
    exact (List.singleton_inj.mp hsame).symm
  rw [backupPlace, ← arrival_unslashed, hbackup, arrival_append, harrival, hsame]
  exact step_of_proper hproper _

theorem Straight.not_prefix (h : store.Straight) {p : List String} (hp : p ∈ walk (pieces store.root) [])
    (entry : String) : ¬ store.rootPlace ++ [entry] <+: p := by
  intro hbelow
  have hlength := (hbelow.trans (h p hp)).length_le
  simp at hlength

theorem mem_ways_of_plain (store : Store) (hplain : isPlainName name = true) :
    p ∈ store.ways name ↔ p ∈ walk (pieces store.root) [] := by
  obtain ⟨lead, hlive, hbackup, -, hwalk⟩ := exists_above_of_plain store hplain
  rw [ways, above, above, hlive, hbackup, List.dropLast_concat, List.dropLast_concat, List.mem_append,
    or_self, hwalk]

end ClassSchema.Store
