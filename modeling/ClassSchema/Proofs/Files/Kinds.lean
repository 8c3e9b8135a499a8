import ClassSchema.Proofs.Files.Content
import ClassSchema.Proofs.Files.Disk

/-!
# Which places hold folders

Whether folders can be made along a path, and a file written at its end, depends only on which places
hold folders and which hold files. A tree with fewer entries is no harder to write to.
-/

namespace ClassSchema.FileTree

open ClassSchema.Path

/-- Whether a place holds a folder, or a file, or nothing. -/
def kindAt (t : FileTree) (place : List String) : Option Bool := (t.at? place).map isFolder

theorem any_isFolder_iff {t : FileTree} {place : List String} :
    (t.at? place).any isFolder = true ↔ t.kindAt place = some true := by
  rw [kindAt]
  cases t.at? place <;> simp

theorem kindAt_eq_none_iff {t : FileTree} {place : List String} :
    t.kindAt place = none ↔ t.at? place = none := Option.map_eq_none_iff

theorem exists_folder {t : FileTree} {place : List String} (h : t.kindAt place = some true) :
    ∃ es, t.at? place = some (.folder es) := by
  obtain ⟨u, hu, hfolder⟩ := Option.map_eq_some_iff.mp h
  cases u with
  | file s => cases hfolder
  | folder es => exact ⟨es, hu⟩

theorem isSome_of_folder {t : FileTree} {place : List String} (h : t.kindAt place = some true) :
    (t.at? place).isSome := by
  obtain ⟨es, hes⟩ := exists_folder h
  rw [hes]
  rfl

theorem kindAt_below {t : FileTree} {place below : List String} (hne : below ≠ [])
    (h : t.kindAt place ≠ some true) : t.kindAt (place ++ below) = none := by
  rw [kindAt_eq_none_iff, at?_append]
  cases hu : t.at? place with
  | none => rfl
  | some u =>
    cases u with
    | file s => exact isLeaf_file s below hne
    | folder es => exact absurd (by rw [kindAt, hu]; rfl) h

theorem kindAt_dropLast {t : FileTree} {place : List String} (hne : place ≠ [])
    (h : t.kindAt place ≠ none) : t.kindAt place.dropLast = some true := by
  by_contra hparent
  have hsplit := List.dropLast_append_getLast hne
  refine h ?_
  rw [← hsplit]
  exact kindAt_below (by simp) hparent

theorem kindAt_of_above {t : FileTree} {place below other : List String} {name : String}
    (hother : place ++ name :: below = other) (h : t.kindAt other = some true) :
    t.kindAt (place ++ [name]) = some true := by
  by_contra hfile
  rw [← hother, List.append_cons] at h
  by_cases hbelow : below = []
  · rw [hbelow, List.append_nil] at h
    exact hfile h
  · rw [kindAt_below hbelow hfile] at h
    cases h

theorem not_prefix_of_none {t : FileTree} {place other : List String} (hnone : t.at? place = none)
    (hfolder : t.kindAt other = some true) : ¬ place <+: other := by
  rintro ⟨below, rfl⟩
  rw [kindAt, at?_append, hnone] at hfolder
  cases hfolder

theorem kindAt_eq_of_contentAt {t u : FileTree} {place : List String}
    (h : t.contentAt place = u.contentAt place) : t.kindAt place = u.kindAt place := by
  have hkind (t : FileTree) : t.kindAt place = (t.contentAt place).map Option.isNone := by
    rw [kindAt, contentAt, Option.map_map]
    congr 1
    funext v
    cases v <;> rfl
  rw [hkind, hkind, h]

theorem kindAt_put_of_not_below {t new : FileTree} {place other : List String}
    (h : ¬ place <+: other) : (t.put place new).kindAt other = t.kindAt other :=
  kindAt_eq_of_contentAt (contentAt_put_of_not_below h)

theorem kindAt_remove_of_not_below {t : FileTree} {place other : List String}
    (h : ¬ place <+: other) : (t.remove place).kindAt other = t.kindAt other :=
  kindAt_eq_of_contentAt (contentAt_remove_of_not_below h)

variable {t u new : FileTree} {place other : List String}

theorem kindAt_put_of_ne (hleaf : new.IsLeaf) (hfolder : t.kindAt place ≠ some true)
    (hne : other ≠ place) : (t.put place new).kindAt other = t.kindAt other :=
  kindAt_eq_of_contentAt (contentAt_put_of_ne hleaf (mt any_isFolder_iff.mp hfolder) hne)

theorem kindAt_put_self (h : t.kindAt place.dropLast = some true) :
    (t.put place new).kindAt place = some new.isFolder := by
  rw [kindAt, at?_put_self t place new (exists_folder h)]
  rfl

theorem at?_put_of_folder (h : t.kindAt place = some true) (new : FileTree) :
    (t.put place new).at? place = some new := by
  refine at?_put_self _ _ _ ?_
  by_cases hroot : place = []
  · subst hroot
    exact exists_folder h
  · exact exists_folder (kindAt_dropLast hroot (by simp [h]))

/-- Apart from a place, whatever stands in one tree stands in the other one, and is of its kind. -/
def FitsIn (place : List String) (t u : FileTree) : Prop :=
  ∀ q, ¬ place <+: q → t.kindAt q ≠ none → u.kindAt q = t.kindAt q

theorem FitsIn.put_right (h : FitsIn place t u) {p : List String} (hleaf : new.IsLeaf)
    (hfolder : u.kindAt p ≠ some true)
    (hkind : u.kindAt p = none ∨ (u.put p new).kindAt p = u.kindAt p) :
    FitsIn place t (u.put p new) := by
  intro q hq ht
  by_cases hqp : q = p
  · subst hqp
    rcases hkind with hnone | hsame
    · exact absurd (h q hq ht ▸ hnone) ht
    · rw [hsame, h q hq ht]
  · rw [kindAt_put_of_ne hleaf hfolder hqp, h q hq ht]

theorem FitsIn.put_left (h : FitsIn place t u) {p : List String} (hleaf : new.IsLeaf)
    (hfolder : t.kindAt p ≠ some true) (hkind : u.kindAt p = some new.isFolder)
    (hparent : t.kindAt p.dropLast = some true) : FitsIn place (t.put p new) u := by
  intro q hq ht
  by_cases hqp : q = p
  · subst hqp
    rw [hkind, kindAt_put_self hparent]
  · rw [kindAt_put_of_ne hleaf hfolder hqp] at ht ⊢
    exact h q hq ht

theorem kindAt_step {piece : String} (h : t.kindAt place = some true)
    (hmissing : t.kindAt (step place piece) = none) :
    step place piece = place ++ [piece] := by
  rw [step] at hmissing ⊢
  split
  · next hdot =>
    rw [if_pos hdot, h] at hmissing
    cases hmissing
  · next hdot =>
    rw [if_neg hdot] at hmissing
    split
    · next hup =>
      rw [if_pos hup] at hmissing
      by_cases hroot : place = []
      · rw [hroot] at hmissing h
        rw [List.dropLast_nil, h] at hmissing
        cases hmissing
      · rw [kindAt_dropLast hroot (by rw [h]; simp)] at hmissing
        cases hmissing
    · rfl

theorem makeAlong_cons_eq {piece : String} {rest : List String} (h : t.kindAt place = some true) :
    t.makeAlong (piece :: rest) place =
      if t.kindAt (step place piece) = none then
        (t.put (step place piece) emptyFolder).makeAlong rest (step place piece)
      else t.makeAlong rest (step place piece) := by
  obtain ⟨es, hes⟩ := exists_folder h
  rw [makeAlong, hes]
  dsimp only
  by_cases hmissing : t.kindAt (step place piece) = none
  · have hstep := kindAt_step h hmissing
    rw [if_pos hmissing]
    have hname : ¬ (piece = "" || piece = ".") = true ∧ ¬ piece = ".." := by
      rw [step] at hstep
      constructor
      · intro hdot
        rw [if_pos hdot] at hstep
        simp at hstep
      · intro hup
        have hdot : ¬ (piece = "" || piece = ".") = true := by simp [hup]
        rw [if_neg hdot, if_pos hup] at hstep
        have hlength := congrArg List.length hstep
        simp at hlength
    rw [if_neg hname.1, if_neg hname.2]
    rw [hstep, kindAt_eq_none_iff, at?_append, hes, Option.bind_some, at?_singleton] at hmissing
    rw [hmissing, hstep]
  · rw [if_neg hmissing]
    rw [step] at hmissing ⊢
    split
    · rfl
    · next hdot =>
      split
      · rfl
      · next hup =>
        rw [if_neg hdot, if_neg hup, kindAt_eq_none_iff, at?_append, hes, Option.bind_some,
          at?_singleton] at hmissing
        split
        · next hnone => exact absurd hnone hmissing
        · rfl

theorem kindAt_of_makeAlong {t' : FileTree} {pieces : List String}
    (h : t.makeAlong pieces place = .ok t') : t.kindAt place = some true := by
  cases pieces with
  | nil => exact any_isFolder_iff.mp (makeAlong_nil h).1
  | cons piece rest =>
    rcases makeAlong_cons t piece rest place with hstop | ⟨hfolder, -⟩
    · rw [hstop] at h
      cases h
    · exact any_isFolder_iff.mp hfolder

/-- Folders that are made are new, empty, and on the way. -/
theorem contentAt_grown (t : FileTree) (pieces place other : List String) :
    (t.grown pieces place).contentAt other = t.contentAt other ∨
      other ∈ walk pieces place ∧ t.contentAt other = none ∧
        (t.grown pieces place).contentAt other = some none := by
  induction pieces generalizing t place with
  | nil =>
    rw [grown_nil]
    exact .inl rfl
  | cons piece rest ih =>
    rcases grown_cons t piece rest place with hstop | ⟨hfolder, hsame | ⟨hnone, hput⟩⟩
    · exact .inl (by rw [hstop])
    · rw [hsame]
      exact (ih t (step place piece)).imp_right fun h => ⟨List.mem_cons_of_mem _ h.1, h.2⟩
    · have hmissing := kindAt_eq_none_iff.mpr hnone
      have hparent : t.kindAt (step place piece).dropLast = some true := by
        rw [kindAt_step (any_isFolder_iff.mp hfolder) hmissing, List.dropLast_concat]
        exact any_isFolder_iff.mp hfolder
      have hmade := contentAt_of_folder (at?_put_self t _ emptyFolder (exists_folder hparent))
      have hrest := ih (t.put (step place piece) emptyFolder) (step place piece)
      rw [hput]
      by_cases hother : other = step place piece
      · subst hother
        refine .inr ⟨List.mem_cons_of_mem _ (mem_walk_self _ _), contentAt_eq_none_iff.mpr hnone, ?_⟩
        rcases hrest with hkept | ⟨-, hnone', -⟩
        · rw [hkept, hmade]
        · rw [hmade] at hnone'
          cases hnone'
      · rw [contentAt_put_of_ne isLeaf_emptyFolder (by simp [hnone]) hother] at hrest
        exact hrest.imp_right fun h => ⟨List.mem_cons_of_mem _ h.1, h.2⟩

theorem contentAt_makeAlong {t' : FileTree} {pieces : List String}
    (h : t.makeAlong pieces place = .ok t') (other : List String) :
    t'.contentAt other = t.contentAt other ∨
      other ∈ walk pieces place ∧ t.contentAt other = none ∧ t'.contentAt other = some none := by
  rw [← grown_of_ok h]
  exact contentAt_grown t pieces place other

theorem kindAt_grown (pieces place : List String) (hother : t.kindAt other ≠ none) :
    (t.grown pieces place).kindAt other = t.kindAt other := by
  rcases contentAt_grown t pieces place other with hsame | ⟨-, hnone, -⟩
  · exact kindAt_eq_of_contentAt hsame
  · exact absurd (kindAt_eq_none_iff.mpr (contentAt_eq_none_iff.mp hnone)) hother

theorem kindAt_makeAlong_mono {t' : FileTree} {pieces : List String}
    (h : t.makeAlong pieces place = .ok t') (hother : t.kindAt other = some true) :
    t'.kindAt other = some true := by
  rw [← grown_of_ok h, kindAt_grown _ _ (by simp [hother]), hother]

theorem kindAt_of_mem_walk {t' : FileTree} {pieces : List String}
    (h : t.makeAlong pieces place = .ok t') (hmem : other ∈ walk pieces place) :
    t'.kindAt other = some true := by
  induction pieces generalizing t place with
  | nil =>
    rw [List.mem_singleton.mp hmem, (makeAlong_nil h).2]
    exact kindAt_of_makeAlong h
  | cons piece rest ih =>
    rcases List.mem_cons.mp hmem with rfl | hmem
    · exact kindAt_makeAlong_mono h (kindAt_of_makeAlong h)
    · rw [makeAlong_cons_eq (kindAt_of_makeAlong h)] at h
      split at h
      · exact ih h hmem
      · exact ih h hmem

/-- Where there are no files, folders can always be made. -/
theorem exists_makeAlong (hfiles : ∀ p, t.kindAt p ≠ some false) (h : t.kindAt place = some true)
    (pieces : List String) :
    ∃ t', t.makeAlong pieces place = .ok t' ∧ ∀ p, t'.kindAt p ≠ some false := by
  induction pieces generalizing t place with
  | nil => exact ⟨t, by rw [makeAlong, if_pos (any_isFolder_iff.mpr h)], hfiles⟩
  | cons piece rest ih =>
    rw [makeAlong_cons_eq h]
    split_ifs with hmissing
    · have hself : (t.put (step place piece) emptyFolder).kindAt (step place piece) = some true := by
        refine kindAt_put_self ?_
        rw [kindAt_step h hmissing, List.dropLast_concat, h]
      refine ih (fun p => ?_) hself
      by_cases hp : p = step place piece
      · rw [hp, hself]
        simp
      · rw [kindAt_put_of_ne isLeaf_emptyFolder (by simp [hmissing]) hp]
        exact hfiles p
    · refine ih hfiles ?_
      rcases hkind : t.kindAt (step place piece) with - | ⟨- | -⟩
      · exact absurd hkind hmissing
      · exact absurd hkind (hfiles _)
      · rfl

theorem makeAlong_eq_self {pieces : List String}
    (h : ∀ p ∈ walk pieces place, t.kindAt p = some true) : t.makeAlong pieces place = .ok t := by
  induction pieces generalizing place with
  | nil =>
    rw [makeAlong, if_pos (any_isFolder_iff.mpr (h place (List.mem_singleton_self place)))]
  | cons piece rest ih =>
    have hrest : ∀ p ∈ walk rest (step place piece), t.kindAt p = some true := fun p hp =>
      h p (List.mem_cons_of_mem _ hp)
    have hstep := hrest _ (mem_walk_self _ _)
    rw [makeAlong_cons_eq (h place List.mem_cons_self), if_neg (by simp [hstep]), ih hrest]

theorem follow_of_walk {pieces : List String}
    (h : ∀ p ∈ walk pieces place, t.kindAt p = some true) :
    t.follow pieces place = some (arrival pieces place) := by
  induction pieces generalizing place with
  | nil => rfl
  | cons piece rest ih =>
    have hrest : ∀ p ∈ walk rest (step place piece), t.kindAt p = some true := fun p hp =>
      h p (List.mem_cons_of_mem _ hp)
    obtain ⟨es, hes⟩ := exists_folder (h place List.mem_cons_self)
    have hnext := ih hrest
    have hstep := hrest _ (mem_walk_self _ _)
    rw [arrival, List.foldl_cons, ← arrival, follow, hes]
    dsimp only
    rw [step] at hnext hstep ⊢
    split
    · next hdot =>
      rw [if_pos hdot] at hnext
      exact hnext
    · next hdot =>
      rw [if_neg hdot] at hnext hstep
      split
      · next hup =>
        rw [if_pos hup] at hnext
        exact hnext
      · next hup =>
        rw [if_neg hup] at hnext hstep
        have hentry : es.contains piece = true := by
          rw [kindAt, at?_append, hes, Option.bind_some, at?_singleton] at hstep
          rw [Dict.contains]
          revert hstep
          cases es.get? piece <;> simp
        rw [if_pos hentry]
        exact hnext

theorem follow_of_kept (h : ∀ q, t.kindAt q ≠ none → u.kindAt q = t.kindAt q) {pieces p : List String}
    (hfollow : t.follow pieces place = some p) : u.follow pieces place = some p := by
  induction pieces generalizing place with
  | nil => exact hfollow
  | cons piece rest ih =>
    rw [follow] at hfollow ⊢
    split at hfollow
    · next es hes =>
      have hfolder : t.kindAt place = some true := by rw [kindAt, hes]; rfl
      obtain ⟨es', hes'⟩ := exists_folder ((h place (by simp [hfolder])).trans hfolder)
      have hentries : es.contains piece = true → es'.contains piece = true := by
        have hsame := h (place ++ [piece])
        rw [kindAt, kindAt, at?_append, at?_append, hes, hes', Option.bind_some, Option.bind_some,
          at?_singleton, at?_singleton] at hsame
        rw [Dict.contains, Dict.contains]
        intro hentry
        have hkind := hsame (by simpa [Option.isSome_iff_ne_none] using hentry)
        rw [← Option.isSome_map, hkind, Option.isSome_map, hentry]
      rw [hes']
      dsimp only
      split_ifs at hfollow ⊢ with hdot hup hentry
      · exact ih hfollow
      · exact ih hfollow
      · exact ih hfollow
      · exact absurd (hentries ‹_›) hentry
    · cases hfollow

theorem lookAt?_grown {path text : String} (h : t.lookAt? path = some (.file text))
    (parts place : List String) : (t.grown parts place).lookAt? path = some (.file text) := by
  obtain ⟨p, hp, hfile⟩ := Option.bind_eq_some_iff.mp h
  have hthere : t.contentAt p = some (some text) := contentAt_of_file hfile
  rw [lookAt?, locate?, follow_of_kept (fun q hq => kindAt_grown parts place hq) hp, Option.bind_some,
    ← contentAt_eq_file_iff, ← hthere]
  refine (contentAt_grown t parts place p).resolve_right fun hnew => ?_
  rw [hthere] at hnew
  cases hnew.2.1

theorem walk_of_follow {pieces p : List String} (h : t.follow pieces place = some p)
    (hp : t.kindAt p = some true) : ∀ q ∈ walk pieces place, t.kindAt q = some true := by
  induction pieces generalizing place with
  | nil =>
    intro q hq
    obtain rfl := Option.some.inj h
    rw [List.mem_singleton.mp hq]
    exact hp
  | cons piece rest ih =>
    obtain ⟨hfolder, hrest⟩ := follow_cons h
    intro q hq
    rcases List.mem_cons.mp hq with rfl | hq
    · exact any_isFolder_iff.mp hfolder
    · exact ih hrest q hq

theorem slotOf?_eq_some_iff {pieces : List String} : t.slotOf? pieces = some place ↔
    ∃ parts name, pieces = parts ++ [name] ∧ Proper name ∧
      (∀ p ∈ walk parts [], t.kindAt p = some true) ∧ place = arrival parts [] ++ [name] := by
  constructor
  · intro h
    rw [slotOf?] at h
    split at h
    · next name parent hlast hparent =>
      split at h
      · cases h
      · next hname =>
        split at h
        · next hfolder =>
          obtain ⟨parts, rfl⟩ := List.getLast?_eq_some_iff.mp hlast
          rw [List.dropLast_concat] at hparent
          refine ⟨parts, name, rfl, by simpa [Proper, and_assoc] using hname,
            walk_of_follow hparent (any_isFolder_iff.mp hfolder), ?_⟩
          rw [← follow_eq_arrival hparent]
          exact (Option.some.inj h).symm
        · cases h
    · cases h
  · rintro ⟨parts, name, rfl, ⟨hempty, hdot, hup⟩, hwalk, rfl⟩
    have hparent := any_isFolder_iff.mpr (hwalk _ (arrival_mem_walk parts []))
    rw [slotOf?, List.getLast?_concat, List.dropLast_concat, follow_of_walk hwalk]
    dsimp only
    rw [if_neg (by simp [hempty, hdot, hup]), if_pos hparent]

theorem lookAt?_of_walk {path name : String} {parts : List String}
    (hpieces : pieces path = parts ++ [name]) (hname : Proper name)
    (h : ∀ p ∈ walk parts [], t.kindAt p = some true) :
    t.lookAt? path = t.at? (arrival parts [] ++ [name]) := by
  obtain ⟨hempty, hdot, hup⟩ := hname
  obtain ⟨es, hes⟩ := exists_folder (h _ (arrival_mem_walk parts []))
  -- Only the last piece may lead to a file, so the walk through folders ends right before it.
  have hlast : (t.follow [name] (arrival parts [])).bind t.at? = t.at? (arrival parts [] ++ [name]) := by
    rw [at?_append, hes, Option.bind_some, at?_singleton]
    cases hget : es.get? name with
    | none => simp [follow, hes, hempty, hdot, hup, Dict.contains, hget]
    | some u => simp [follow, hes, hempty, hdot, hup, Dict.contains, hget, at?_append, at?_singleton]
  rw [lookAt?, locate?, hpieces, follow_append, follow_of_walk h, Option.bind_some, hlast]

/-- What has been written is found. -/
theorem lookAt?_writeText {t' : FileTree} {path text : String} (h : t.writeText path text = .ok t') :
    t'.lookAt? path = some (.file text) := by
  obtain ⟨place, hplace, hfolder, rfl⟩ := writeText_ok h
  obtain ⟨parts, name, hparts, hname, hwalk, rfl⟩ := slotOf?_eq_some_iff.mp hplace
  have hfile := mt any_isFolder_iff.mpr hfolder
  -- The file is put where no folder stands, so every folder on the way is still there.
  rw [lookAt?_of_walk hparts hname fun p hp => ?_]
  · refine at?_put_self _ _ _ ?_
    rw [List.dropLast_concat]
    exact exists_folder (hwalk _ (arrival_mem_walk parts []))
  · rw [kindAt_put_of_ne (isLeaf_file text) hfile (by rintro rfl; exact hfile (hwalk _ hp)), hwalk p hp]

theorem FitsIn.makeAlong {off : List String} (hfit : FitsIn off t u) {u' : FileTree}
    {pieces : List String} (havoid : ∀ p ∈ walk pieces place, ¬ off <+: p)
    (hplace : t.kindAt place = some true) (h : u.makeAlong pieces place = .ok u') :
    ∃ t', t.makeAlong pieces place = .ok t' ∧ FitsIn off t' u' := by
  induction pieces generalizing t u place with
  | nil =>
    obtain ⟨-, rfl⟩ := makeAlong_nil h
    exact ⟨t, by rw [FileTree.makeAlong, if_pos (any_isFolder_iff.mpr hplace)], hfit⟩
  | cons piece rest ih =>
    have hrest : ∀ p ∈ walk rest (step place piece), ¬ off <+: p := fun p hp =>
      havoid p (List.mem_cons_of_mem _ hp)
    have hoff := hrest _ (mem_walk_self _ _)
    rw [makeAlong_cons_eq (kindAt_of_makeAlong h)] at h
    rw [makeAlong_cons_eq hplace]
    by_cases hmissing : t.kindAt (step place piece) = none
    · have hleaf : t.kindAt (step place piece) ≠ some true := by simp [hmissing]
      have hparent : t.kindAt (step place piece).dropLast = some true := by
        rw [kindAt_step hplace hmissing, List.dropLast_concat]
        exact hplace
      have hput : (t.put (step place piece) emptyFolder).kindAt (step place piece) = some true :=
        kindAt_put_self hparent
      rw [if_pos hmissing]
      split at h
      · next humissing =>
        have hfit' : FitsIn off (t.put (step place piece) emptyFolder)
            (u.put (step place piece) emptyFolder) :=
          (hfit.put_right isLeaf_emptyFolder (by simp [humissing]) (.inl humissing)).put_left
            isLeaf_emptyFolder hleaf (kindAt_of_makeAlong h) hparent
        exact ih hfit' hrest hput h
      · have hfit' := hfit.put_left isLeaf_emptyFolder hleaf (kindAt_of_makeAlong h) hparent
        exact ih hfit' hrest hput h
    · have hsame := hfit _ hoff hmissing
      rw [if_neg hmissing]
      rw [if_neg (by rw [hsame]; exact hmissing)] at h
      have hnext : t.kindAt (step place piece) = some true := by
        rw [← hsame]
        exact kindAt_of_makeAlong h
      exact ih hfit hrest hnext h

theorem FitsIn.makeAlong_right {off : List String} (hfit : FitsIn off t u) {u' : FileTree}
    {pieces : List String} (h : u.makeAlong pieces place = .ok u') : FitsIn off t u' := by
  induction pieces generalizing u place with
  | nil =>
    obtain ⟨-, rfl⟩ := makeAlong_nil h
    exact hfit
  | cons piece rest ih =>
    rw [makeAlong_cons_eq (kindAt_of_makeAlong h)] at h
    split at h
    · next hmissing =>
      exact ih (hfit.put_right isLeaf_emptyFolder (by simp [hmissing]) (.inl hmissing)) h
    · exact ih hfit h

end ClassSchema.FileTree
