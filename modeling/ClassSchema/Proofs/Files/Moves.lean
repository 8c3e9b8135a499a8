import ClassSchema.Proofs.Files.Kinds

/-!
# Removing and moving by path

A path that names an entry leads to it through the folders above. What is removed or moved is what stands
there, and nothing else changes but at the place that it is moved to.
-/

namespace ClassSchema

namespace Path

/-- The pieces of a path before the name that it ends in. -/
def above (path : String) : List String := (unslashed path).dropLast

theorem exists_pieces_unslashed (path : String) :
    ∃ n, pieces path = unslashed path ++ List.replicate n "" := by
  refine ⟨((pieces path).reverse.takeWhile (· = "")).length, ?_⟩
  have hempty : (pieces path).reverse.takeWhile (· = "") =
      List.replicate ((pieces path).reverse.takeWhile (· = "")).length "" := by
    refine List.eq_replicate_of_mem fun piece hpiece => ?_
    simpa using List.all_eq_true.mp List.all_takeWhile piece hpiece
  have hsplit := congrArg List.reverse
    (List.takeWhile_append_dropWhile (p := fun piece => decide (piece = "")) (l := (pieces path).reverse))
  rw [List.reverse_append, List.reverse_reverse, hempty, List.reverse_replicate] at hsplit
  exact hsplit.symm

theorem arrival_empty (n : Nat) (place : List String) : arrival (List.replicate n "") place = place := by
  induction n with
  | zero => rfl
  | succ n ih => exact ih

theorem arrival_unslashed (path : String) : arrival (unslashed path) [] = arrival (pieces path) [] := by
  obtain ⟨n, hn⟩ := exists_pieces_unslashed path
  rw [hn, arrival_append, arrival_empty]

theorem mem_walk_unslashed_iff {path : String} {p : List String} :
    p ∈ walk (unslashed path) [] ↔ p ∈ walk (pieces path) [] := by
  obtain ⟨n, hn⟩ := exists_pieces_unslashed path
  rw [hn]
  clear hn
  induction n with
  | zero => simp
  | succ n ih =>
    rw [List.replicate_succ', ← List.append_assoc, mem_walk_concat, ← ih, arrival_append, arrival_empty]
    refine ⟨.inl, ?_⟩
    rintro (hp | rfl)
    · exact hp
    · exact arrival_mem_walk _ _

theorem mem_walk_of_above {path : String} {p : List String} (h : p ∈ walk (above path) []) :
    p ∈ walk (pieces path) [] := by
  obtain ⟨last, hlast⟩ := List.dropLast_prefix (unslashed path)
  rw [← mem_walk_unslashed_iff, ← hlast]
  exact mem_walk_append last h

theorem exists_unslashed_eq {path : String} (h : endsInDots path = false) :
    ∃ name, unslashed path = above path ++ [name] ∧ Proper name := by
  rw [endsInDots] at h
  cases hlast : (unslashed path).getLast? with
  | none => simp [hlast] at h
  | some name =>
    obtain ⟨parts, hparts⟩ := List.getLast?_eq_some_iff.mp hlast
    have hempty : name ≠ "" := by
      rintro rfl
      have hhead := congrArg List.head? (congrArg List.reverse hparts)
      rw [unslashed, List.reverse_reverse, List.reverse_append] at hhead
      have hnot := List.head?_dropWhile_not (fun piece => decide (piece = "")) (pieces path).reverse
      rw [hhead] at hnot
      simp at hnot
    refine ⟨name, by rw [above, hparts, List.dropLast_concat], hempty, ?_⟩
    simpa [hlast] using h

theorem endsInDots_of_unslashed {path name : String} {parts : List String}
    (h : unslashed path = parts ++ [name]) (hname : Proper name) : endsInDots path = false := by
  simp [endsInDots, h, hname.2.1, hname.2.2]

theorem exists_arrival_eq {path : String} (h : endsInDots path = false) : ∃ name, Proper name ∧
    unslashed path = above path ++ [name] ∧ arrival (pieces path) [] = arrival (above path) [] ++ [name] := by
  obtain ⟨name, hunslashed, hname⟩ := exists_unslashed_eq h
  refine ⟨name, hname, hunslashed, ?_⟩
  rw [← arrival_unslashed, hunslashed, arrival_append, ← step_of_proper hname]
  rfl

theorem dropLast_arrival {path : String} (h : endsInDots path = false) :
    (arrival (pieces path) []).dropLast = arrival (above path) [] := by
  obtain ⟨name, -, -, harrival⟩ := exists_arrival_eq h
  rw [harrival, List.dropLast_concat]

theorem mem_walk_iff {path : String} (h : endsInDots path = false) {p : List String} :
    p ∈ walk (pieces path) [] ↔ p ∈ walk (above path) [] ∨ p = arrival (pieces path) [] := by
  obtain ⟨name, hname, hunslashed, harrival⟩ := exists_arrival_eq h
  rw [← mem_walk_unslashed_iff, hunslashed, mem_walk_concat, step_of_proper hname, harrival]

end Path

namespace FileTree

open ClassSchema.Path

variable {t t' : FileTree} {path source target : String} {place goal other : List String}

theorem folderSlot?_eq_some_iff : t.folderSlot? path = some place ↔ endsInDots path = false ∧
    (∀ p ∈ walk (above path) [], t.kindAt p = some true) ∧ place = arrival (pieces path) [] := by
  rw [folderSlot?, slotOf?_eq_some_iff]
  constructor
  · rintro ⟨parts, name, hunslashed, hname, hwalk, rfl⟩
    refine ⟨endsInDots_of_unslashed hunslashed hname, by rwa [above, hunslashed, List.dropLast_concat], ?_⟩
    rw [← arrival_unslashed, hunslashed, arrival_append, ← step_of_proper hname]
    rfl
  · rintro ⟨hdots, hwalk, rfl⟩
    obtain ⟨name, hname, hunslashed, harrival⟩ := exists_arrival_eq hdots
    exact ⟨_, name, hunslashed, hname, hwalk, harrival⟩

theorem isSome_of_follow {pieces : List String} (hplace : (t.at? place).isSome)
    (h : t.follow pieces place = some other) : (t.at? other).isSome := by
  induction pieces generalizing place with
  | nil =>
    obtain rfl := Option.some.inj h
    exact hplace
  | cons piece rest ih =>
    rw [follow] at h
    split at h
    · next es hes =>
      split at h
      · exact ih hplace h
      · split at h
        · refine ih ?_ h
          by_cases hroot : place = []
          · rwa [hroot] at hplace ⊢
          · exact isSome_of_folder (kindAt_dropLast hroot (by simp [kindAt, hes]))
        · split at h
          · next hentry =>
            refine ih ?_ h
            rw [at?_append, hes, Option.bind_some, at?_singleton]
            exact hentry
          · cases h
    · cases h

theorem isSome_of_locate? (h : t.locate? path = some place) :
    place = arrival (pieces path) [] ∧ (t.at? place).isSome :=
  ⟨follow_eq_arrival h, isSome_of_follow rfl h⟩

theorem locate?_of_folder (hdots : endsInDots path = false)
    (hwalk : ∀ p ∈ walk (above path) [], t.kindAt p = some true)
    (hfolder : t.kindAt (arrival (pieces path) []) = some true) :
    t.locate? path = some (arrival (pieces path) []) := by
  refine follow_of_walk fun p hp => ?_
  rcases (mem_walk_iff hdots).mp hp with hp | rfl
  · exact hwalk p hp
  · exact hfolder

theorem has_of_locate? (h : t.locate? path = some place) : t.has path = true := by
  rw [has, lookAt?, h]
  exact (isSome_of_locate? h).2

theorem lookAt?_of_none (h : t.at? (arrival (pieces path) []) = none) : t.lookAt? path = none := by
  rw [lookAt?]
  cases hlocate : t.locate? path with
  | none => rfl
  | some place => rw [(isSome_of_locate? hlocate).1, Option.bind_some, h]

theorem has_eq_false_of_none (h : t.at? (arrival (pieces path) []) = none) : t.has path = false := by
  rw [has, lookAt?_of_none h]
  rfl

/-! ### Removing -/

theorem contentAt_removeFolder (h : ¬ arrival (pieces path) [] <+: other) :
    (t.removeFolder path).2.contentAt other = t.contentAt other := by
  rw [removeFolder]
  split
  · rfl
  · next place hplace =>
    obtain rfl := (isSome_of_locate? hplace).1
    dsimp only
    split_ifs
    · rfl
    · exact contentAt_put_of_not_below h
    · exact contentAt_put_of_not_below h
    · exact contentAt_remove_of_not_below h

theorem at?_removeFolder (h : ¬ arrival (pieces path) [] <+: other)
    (h' : ¬ other <+: arrival (pieces path) []) : (t.removeFolder path).2.at? other = t.at? other := by
  rw [removeFolder]
  split
  · rfl
  · next place hplace =>
    obtain rfl := (isSome_of_locate? hplace).1
    dsimp only
    split_ifs
    · rfl
    · exact at?_put_of_apart h h'
    · exact at?_put_of_apart h h'
    · exact at?_remove_of_apart h h'

theorem removeFolder_ok (h : t.removeFolder path = (.ok (), t')) :
    t.kindAt (arrival (pieces path) []) = some true ∧
      (t' = t.remove (arrival (pieces path) []) ∧ endsInDots path = false ∨
        t' = t.put (arrival (pieces path) []) emptyFolder ∧ t'.has path = false) := by
  rw [removeFolder] at h
  split at h
  · cases h
  · next place hplace =>
    obtain ⟨rfl, hsome⟩ := isSome_of_locate? hplace
    split at h
    · cases h
    · next hfile =>
      have hfolder : t.kindAt (arrival (pieces path) []) = some true := by
        obtain ⟨u, hu⟩ := Option.isSome_iff_exists.mp hsome
        rw [kindAt, hu]
        cases u with
        | file text => simp [hu, isFile] at hfile
        | folder es => rfl
      refine ⟨hfolder, ?_⟩
      dsimp only at h
      split at h
      · next hgone =>
        obtain ⟨-, rfl⟩ := Prod.mk.inj h
        exact .inr ⟨rfl, by simpa using hgone⟩
      · split at h
        · cases h
        · next hdots =>
          obtain ⟨-, rfl⟩ := Prod.mk.inj h
          exact .inl ⟨rfl, by simpa using hdots⟩

theorem eq_remove_of_walk (h : t.removeFolder path = (.ok (), t')) (hdots : endsInDots path = false)
    (hwalk : ∀ p ∈ walk (above path) [], t'.kindAt p = some true) :
    t' = t.remove (arrival (pieces path) []) := by
  obtain ⟨hfolder, ⟨htree, -⟩ | ⟨htree, hhas⟩⟩ := removeFolder_ok h
  · exact htree
  · have hempty : t'.kindAt (arrival (pieces path) []) = some true := by
      rw [htree, kindAt, at?_put_of_folder hfolder]
      rfl
    rw [has_of_locate? (locate?_of_folder hdots hwalk hempty)] at hhas
    cases hhas

/-- A folder is taken away by a path that does not lead through it. -/
theorem removeFolder_of_walk (hdots : endsInDots path = false)
    (hwalk : ∀ p ∈ walk (above path) [],
      t.kindAt p = some true ∧ ¬ arrival (pieces path) [] <+: p)
    (hfolder : t.kindAt (arrival (pieces path) []) = some true) :
    t.removeFolder path = (.ok (), t.remove (arrival (pieces path) [])) := by
  have hnotFile : ¬ (t.at? (arrival (pieces path) [])).any isFile = true := by
    obtain ⟨es, hes⟩ := exists_folder hfolder
    simp [hes, isFile]
  have hemptied : (t.put (arrival (pieces path) []) emptyFolder).has path = true := by
    refine has_of_locate? (locate?_of_folder hdots (fun p hp => ?_) ?_)
    · rw [kindAt_put_of_not_below (hwalk p hp).2, (hwalk p hp).1]
    · refine kindAt_put_self ?_
      rw [dropLast_arrival hdots]
      exact (hwalk _ (arrival_mem_walk _ _)).1
  rw [removeFolder, locate?_of_folder hdots (fun p hp => (hwalk p hp).1) hfolder]
  dsimp only
  rw [if_neg hnotFile, if_neg (by simp [hemptied]), if_neg (by simp [hdots])]

/-- Where the path leads through what the folder held, the empty folder stays. -/
theorem removeFolder_of_through {p : List String} (hlocate : t.locate? path = some place)
    (hfolder : t.kindAt place = some true) (hp : p ∈ walk (pieces path) []) (hbelow : place <+: p)
    (hne : p ≠ place) : t.removeFolder path = (.ok (), t.put place emptyFolder) := by
  obtain ⟨es, hes⟩ := exists_folder hfolder
  have hemptied := at?_put_of_folder hfolder emptyFolder
  have hlost : (t.put place emptyFolder).at? p = none := by
    obtain ⟨below, rfl⟩ := hbelow
    rw [at?_append, hemptied, Option.bind_some]
    exact isLeaf_emptyFolder below fun hnil => hne (by rw [hnil, List.append_nil])
  have hhas : (t.put place emptyFolder).has path = false := by
    rw [has, lookAt?]
    cases hfound : (t.put place emptyFolder).locate? path with
    | none => rfl
    | some found =>
      have hsame : found = place := (follow_eq_arrival hfound).trans (follow_eq_arrival hlocate).symm
      have hwalk := walk_of_follow hfound (by rw [kindAt, hsame, hemptied]; rfl) p hp
      rw [kindAt, hlost] at hwalk
      cases hwalk
  rw [removeFolder, hlocate]
  dsimp only
  rw [if_neg (by simp [hes, isFile]), if_pos (by simp [hhas])]

/-! ### Moving -/

/-- What moving something from one place to another does. -/
structure Moved (place goal : List String) (t t' : FileTree) : Prop where
  there : (t.at? place).isSome
  apart : ¬ place <+: goal ∧ ¬ goal <+: place
  moved : ∀ below, t'.at? (goal ++ below) = t.at? (place ++ below)
  gone : ∀ below, t'.at? (place ++ below) = none
  kept : ∀ p, ¬ place <+: p → ¬ goal <+: p → t'.contentAt p = t.contentAt p
  same : ∀ p, ¬ place <+: p → ¬ p <+: place → ¬ goal <+: p → ¬ p <+: goal → t'.at? p = t.at? p

theorem not_prefix_of_givesWay {moved : FileTree} (hplace : (t.at? place).isSome)
    (hway : givesWay (t.at? goal) moved = true) (hne : place ≠ goal) : ¬ goal <+: place := by
  rintro ⟨below, rfl⟩
  have hbelow : below ≠ [] := by
    rintro rfl
    exact hne (List.append_nil goal)
  rw [at?_append] at hplace
  cases hgoal : t.at? goal with
  | none => simp [hgoal] at hplace
  | some u =>
    rw [hgoal] at hway hplace
    cases u with
    | file text =>
      rw [Option.bind_some, isLeaf_file text below hbelow] at hplace
      cases hplace
    | folder es =>
      obtain ⟨-, hempty⟩ := Bool.and_eq_true_iff.mp hway
      obtain ⟨entries⟩ := es
      obtain rfl : entries = [] := by simpa using hempty
      have hleaf := isLeaf_emptyFolder below hbelow
      rw [emptyFolder, Dict.empty] at hleaf
      rw [Option.bind_some, hleaf] at hplace
      cases hplace

theorem moved_put {moved : FileTree} (hmoved : t.at? place = some moved) (hinto : ¬ place <+: goal)
    (hover : ¬ goal <+: place) (habove : t.kindAt goal.dropLast = some true) :
    Moved place goal t ((t.remove place).put goal moved) where
  there := by rw [hmoved]; rfl
  apart := ⟨hinto, hover⟩
  moved := fun below => by
    -- The folder above the goal is not what was moved, so it is still there.
    have hkept : (t.remove place).kindAt goal.dropLast = some true := by
      rw [kindAt_remove_of_not_below fun hp => hinto (hp.trans (List.dropLast_prefix _)), habove]
    rw [at?_append, at?_put_self _ _ _ (exists_folder hkept), Option.bind_some, at?_append, hmoved,
      Option.bind_some]
  gone := fun below => by
    have hgoal : ¬ goal <+: place ++ below := by
      intro hp
      rcases List.prefix_or_prefix_of_prefix hp (List.prefix_append _ below) with hp | hp
      · exact hover hp
      · exact hinto hp
    have hnone : (t.remove place).at? place = none := by
      refine at?_remove_self ?_
      rintro rfl
      exact hinto List.nil_prefix
    rw [← contentAt_eq_none_iff, contentAt_put_of_not_below hgoal, contentAt_eq_none_iff, at?_append, hnone,
      Option.bind_none]
  kept := fun p hp hp' => by rw [contentAt_put_of_not_below hp', contentAt_remove_of_not_below hp]
  same := fun p hp₁ hp₂ hp₃ hp₄ => by rw [at?_put_of_apart hp₃ hp₄, at?_remove_of_apart hp₁ hp₂]

theorem rename_ok (h : t.rename source target = some t') :
    endsInDots source = false ∧ endsInDots target = false ∧
      (∀ p ∈ walk (above source) [], t.kindAt p = some true) ∧
      (∀ p ∈ walk (above target) [], t.kindAt p = some true) ∧
      (t.at? (arrival (pieces source) [])).isSome ∧
      (arrival (pieces source) [] = arrival (pieces target) [] ∧ t' = t ∨
        arrival (pieces source) [] ≠ arrival (pieces target) [] ∧
        (∃ moved, t.at? (arrival (pieces source) []) = some moved ∧
          givesWay (t.at? (arrival (pieces target) [])) moved = true) ∧
        Moved (arrival (pieces source) []) (arrival (pieces target) []) t t') := by
  rw [rename] at h
  split at h
  · next place goal hplace hgoal =>
    obtain ⟨hsource, hsourceWalk, rfl⟩ := folderSlot?_eq_some_iff.mp hplace
    obtain ⟨htarget, htargetWalk, rfl⟩ := folderSlot?_eq_some_iff.mp hgoal
    split at h
    · cases h
    · next moved hmoved =>
      have hthere : (t.at? (arrival (pieces source) [])).isSome := by rw [hmoved]; rfl
      refine ⟨hsource, htarget, hsourceWalk, htargetWalk, hthere, ?_⟩
      split at h
      · next hsame => exact .inl ⟨hsame, (Option.some.inj h).symm⟩
      · next hne =>
        split at h
        · cases h
        · next hblocked =>
          obtain rfl := Option.some.inj h
          simp only [Bool.or_eq_true, not_or, Bool.not_eq_true', Bool.not_eq_false,
            List.isPrefixOf_iff_prefix] at hblocked
          obtain ⟨hinto, hway⟩ := hblocked
          have habove : t.kindAt (arrival (pieces target) []).dropLast = some true := by
            rw [dropLast_arrival htarget]
            exact htargetWalk _ (arrival_mem_walk _ _)
          exact .inr ⟨hne, ⟨moved, hmoved, hway⟩,
            moved_put hmoved hinto (not_prefix_of_givesWay hthere hway hne) habove⟩
  · cases h

theorem moved_of_rename (h : t.rename source target = some t')
    (hne : arrival (pieces source) [] ≠ arrival (pieces target) []) :
    Moved (arrival (pieces source) []) (arrival (pieces target) []) t t' := by
  obtain ⟨-, -, -, -, -, ⟨hsame, -⟩ | ⟨-, -, hmoved⟩⟩ := rename_ok h
  · exact absurd hsame hne
  · exact hmoved

theorem exists_rename {moved : FileTree} (hsource : endsInDots source = false)
    (htarget : endsInDots target = false) (hsourceWalk : ∀ p ∈ walk (above source) [], t.kindAt p = some true)
    (htargetWalk : ∀ p ∈ walk (above target) [], t.kindAt p = some true)
    (hmoved : t.at? (arrival (pieces source) []) = some moved)
    (hway : t.at? (arrival (pieces target) []) = none)
    (hinto : ¬ arrival (pieces source) [] <+: arrival (pieces target) []) :
    ∃ t', t.rename source target = some t' := by
  rw [rename, folderSlot?_eq_some_iff.mpr ⟨hsource, hsourceWalk, rfl⟩,
    folderSlot?_eq_some_iff.mpr ⟨htarget, htargetWalk, rfl⟩]
  dsimp only
  rw [hmoved]
  dsimp only
  have hne : arrival (pieces source) [] ≠ arrival (pieces target) [] := by
    intro hsame
    rw [hsame] at hinto
    exact hinto List.prefix_rfl
  rw [if_neg hne, if_neg (by simp [hway, givesWay, List.isPrefixOf_iff_prefix, hinto])]
  exact ⟨_, rfl⟩

theorem contentAt_rename (h : t.rename source target = some t')
    (hsource : ¬ arrival (pieces source) [] <+: other) (htarget : ¬ arrival (pieces target) [] <+: other) :
    t'.contentAt other = t.contentAt other := by
  obtain ⟨-, -, -, -, -, ⟨-, rfl⟩ | ⟨-, -, hmoved⟩⟩ := rename_ok h
  · rfl
  · exact hmoved.kept other hsource htarget

end FileTree

end ClassSchema
