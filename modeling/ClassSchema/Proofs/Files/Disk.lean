import ClassSchema.Files.Disk
import ClassSchema.Proofs.Files.Path
import ClassSchema.Proofs.Files.Tree

/-!
# Where paths lead

A path moves through places in a way that its pieces alone decide; the tree only decides how far it can
be followed. Making folders along a path, or writing a file at its end, changes nothing at places that
the path does not lead into.
-/

namespace ClassSchema

namespace Path

/-- The place after one more piece. -/
def step (place : List String) (piece : String) : List String :=
  if piece = "" || piece = "." then place
  else if piece = ".." then place.dropLast
  else place ++ [piece]

/-- A name that stands for an entry of a folder wherever it stands in a path. -/
def Proper (name : String) : Prop := name ≠ "" ∧ name ≠ "." ∧ name ≠ ".."

theorem step_of_proper {name : String} (h : Proper name) (place : List String) :
    step place name = place ++ [name] := by
  obtain ⟨hempty, hdot, hup⟩ := h
  simp [step, hempty, hdot, hup]

theorem isPlainName_iff {name : String} : isPlainName name = true ↔ Proper name ∧ '/' ∉ name.toList := by
  simp [isPlainName, Proper, and_assoc]

theorem isAbsolute_of_plain {name : String} (h : isPlainName name = true) : isAbsolute name = false := by
  rw [isAbsolute, decide_eq_false_iff_not]
  exact fun hhead => (isPlainName_iff.mp h).2 (List.mem_of_mem_head? hhead)

/-- The places that pieces lead through, the first and the last included. -/
def walk : List String → List String → List (List String)
  | [], place => [place]
  | piece :: rest, place => place :: walk rest (step place piece)

/-- The place that pieces lead to. -/
def arrival (pieces place : List String) : List String := pieces.foldl step place

/-- No beginning of the path leads into the place. -/
def Avoids (path : String) (place : List String) : Prop :=
  ∀ p ∈ walk (pieces path) [], ¬ place <+: p

theorem mem_walk_self (pieces place : List String) : place ∈ walk pieces place := by
  cases pieces <;> simp [walk]

theorem arrival_mem_walk (pieces place : List String) : arrival pieces place ∈ walk pieces place := by
  induction pieces generalizing place with
  | nil => exact List.mem_singleton_self place
  | cons piece rest ih => exact List.mem_cons_of_mem _ (ih (step place piece))

theorem mem_walk_append {pieces : List String} (more : List String) {place p : List String}
    (h : p ∈ walk pieces place) : p ∈ walk (pieces ++ more) place := by
  induction pieces generalizing place with
  | nil =>
    rw [List.mem_singleton.mp h]
    exact mem_walk_self _ _
  | cons piece rest ih =>
    rcases List.mem_cons.mp h with rfl | h
    · exact List.mem_cons_self
    · exact List.mem_cons_of_mem _ (ih h)

theorem mem_walk_concat {parts : List String} {place p : List String} {piece : String} :
    p ∈ walk (parts ++ [piece]) place ↔ p ∈ walk parts place ∨ p = step (arrival parts place) piece := by
  induction parts generalizing place with
  | nil => simp [walk, arrival]
  | cons first parts ih =>
    rw [List.cons_append, walk, walk, List.mem_cons, List.mem_cons, ih, or_assoc]
    rfl

theorem arrival_append (parts more place : List String) :
    arrival (parts ++ more) place = arrival more (arrival parts place) :=
  List.foldl_append

theorem mem_step {place : List String} {piece name : String} (h : name ∈ step place piece) :
    name ∈ place ∨ name = piece := by
  rw [step] at h
  split at h
  · exact .inl h
  · split at h
    · exact .inl (List.dropLast_subset place h)
    · exact (List.mem_append.mp h).imp_right List.mem_singleton.mp

theorem mem_of_mem_walk {pieces place p : List String} {name : String} (h : p ∈ walk pieces place)
    (hname : name ∈ p) : name ∈ place ∨ name ∈ pieces := by
  induction pieces generalizing place with
  | nil =>
    rw [List.mem_singleton.mp h] at hname
    exact .inl hname
  | cons piece rest ih =>
    rcases List.mem_cons.mp h with rfl | h
    · exact .inl hname
    · rcases ih h with hstep | hrest
      · rcases mem_step hstep with hplace | rfl
        · exact .inl hplace
        · exact .inr List.mem_cons_self
      · exact .inr (List.mem_cons_of_mem _ hrest)

/-- Paths below a path have pieces of their own, after pieces that lead to the same place through the same
places. -/
theorem exists_pieces_join (root : String) : ∃ lead,
    (∀ rest, isAbsolute rest = false → pieces (join root rest) = lead ++ pieces rest) ∧
      arrival lead [] = arrival (pieces root) [] ∧
        ∀ p, p ∈ walk lead [] ↔ p ∈ walk (pieces root) [] := by
  by_cases hempty : root = ""
  · subst hempty
    refine ⟨[], fun rest hrest => by simp [join, hrest], rfl, fun p => ?_⟩
    show p ∈ [[]] ↔ p ∈ [[], []]
    simp
  · by_cases hlast : root.toList.getLast? = some '/'
    · obtain ⟨init, hinit⟩ := List.getLast?_eq_some_iff.mp hlast
      obtain rfl : root = String.ofList init ++ "/" := String.toList_injective (by simp [hinit])
      have hroot : pieces (String.ofList init ++ "/") = pieces (String.ofList init) ++ [""] := by
        have happend := pieces_append (String.ofList init) ""
        rwa [String.append_empty] at happend
      refine ⟨pieces (String.ofList init), fun rest hrest => ?_, ?_, fun p => ?_⟩
      · rw [join, if_neg (by simp [hrest]), if_neg hempty, if_pos hlast, pieces_append]
      · rw [hroot, arrival_append]
        rfl
      · rw [hroot, mem_walk_concat]
        refine ⟨.inl, ?_⟩
        rintro (hp | rfl)
        · exact hp
        · exact arrival_mem_walk _ _
    · refine ⟨pieces root, fun rest hrest => ?_, rfl, fun p => Iff.rfl⟩
      rw [join, if_neg (by simp [hrest]), if_neg hempty, if_neg hlast, pieces_append]

theorem mem_walk_of_parent {path : String} {p : List String} (h : p ∈ walk (pieces (parent path)) []) :
    p ∈ walk (pieces path) [] := by
  rcases pieces_parent path with hnil | ⟨more, hmore⟩
  · have hroot : p = [] := by
      rw [hnil] at h
      simpa [walk, step] using h
    rw [hroot]
    exact mem_walk_self _ _
  · rw [← hmore]
    exact mem_walk_append more h

theorem Avoids.parent {path : String} {place : List String} (h : Avoids path place) :
    Avoids (parent path) place := fun p hp => h p (mem_walk_of_parent hp)

theorem Avoids.mono {path : String} {place below : List String} (h : Avoids path place)
    (hbelow : place <+: below) : Avoids path below := fun p hp hprefix => h p hp (hbelow.trans hprefix)

end Path

namespace FileTree

open ClassSchema.Path

theorem follow_append (t : FileTree) (parts more place : List String) :
    t.follow (parts ++ more) place = (t.follow parts place).bind (t.follow more) := by
  induction parts generalizing place with
  | nil => rfl
  | cons part parts ih =>
    rw [List.cons_append, follow, follow]
    split
    · split
      · exact ih place
      · split
        · exact ih place.dropLast
        · split
          · exact ih (place ++ [part])
          · rfl
    · rfl

theorem follow_cons {t : FileTree} {piece : String} {rest place p : List String}
    (h : t.follow (piece :: rest) place = some p) :
    (t.at? place).any isFolder = true ∧ t.follow rest (step place piece) = some p := by
  rw [follow] at h
  split at h
  · next es hes =>
    refine ⟨by rw [hes]; rfl, ?_⟩
    rw [step]
    split at h
    · next hdot => rwa [if_pos hdot]
    · next hdot =>
      split at h
      · next hup => rwa [if_neg hdot, if_pos hup]
      · next hup =>
        split at h
        · rwa [if_neg hdot, if_neg hup]
        · cases h
  · cases h

theorem follow_eq_arrival {t : FileTree} {pieces place p : List String}
    (h : t.follow pieces place = some p) : p = arrival pieces place := by
  induction pieces generalizing place with
  | nil => exact (Option.some.inj h).symm
  | cons piece rest ih => exact ih (follow_cons h).2

theorem makeAlong_cons (t : FileTree) (piece : String) (rest place : List String) :
    t.makeAlong (piece :: rest) place = .error t ∨ (t.at? place).any isFolder = true ∧
      (t.makeAlong (piece :: rest) place = t.makeAlong rest (step place piece) ∨
        t.at? (step place piece) = none ∧ t.makeAlong (piece :: rest) place =
          (t.put (step place piece) emptyFolder).makeAlong rest (step place piece)) := by
  rw [makeAlong]
  split
  · next es hes =>
    refine .inr ⟨by rw [hes]; rfl, ?_⟩
    rw [step]
    split
    · exact .inl rfl
    · split
      · exact .inl rfl
      · split
        · next hnone => exact .inr ⟨by rw [at?_append, hes, Option.bind_some, at?_singleton, hnone], rfl⟩
        · exact .inl rfl
  · exact .inl rfl

theorem makeAlong_nil {t t' : FileTree} {place : List String} (h : t.makeAlong [] place = .ok t') :
    (t.at? place).any isFolder = true ∧ t' = t := by
  rw [makeAlong] at h
  split at h
  · next hfolder => exact ⟨hfolder, (Except.ok.inj h).symm⟩
  · cases h

/-- The tree with as many folders as could be made. -/
def grown (t : FileTree) (pieces place : List String) : FileTree :=
  match t.makeAlong pieces place with
  | .ok t' => t'
  | .error t' => t'

theorem grown_of_ok {t t' : FileTree} {pieces place : List String}
    (h : t.makeAlong pieces place = .ok t') : t.grown pieces place = t' := by
  rw [grown, h]

theorem grown_of_error {t t' : FileTree} {pieces place : List String}
    (h : t.makeAlong pieces place = .error t') : t.grown pieces place = t' := by
  rw [grown, h]

theorem grown_nil (t : FileTree) (place : List String) : t.grown [] place = t := by
  rw [grown, makeAlong]
  split_ifs <;> rfl

theorem grown_cons (t : FileTree) (piece : String) (rest place : List String) :
    t.grown (piece :: rest) place = t ∨ (t.at? place).any isFolder = true ∧
      (t.grown (piece :: rest) place = t.grown rest (step place piece) ∨
        t.at? (step place piece) = none ∧ t.grown (piece :: rest) place =
          (t.put (step place piece) emptyFolder).grown rest (step place piece)) := by
  rcases makeAlong_cons t piece rest place with hstop | ⟨hfolder, hsame | ⟨hnone, hput⟩⟩
  · exact .inl (grown_of_error hstop)
  · exact .inr ⟨hfolder, .inl (by rw [grown, hsame, grown])⟩
  · exact .inr ⟨hfolder, .inr ⟨hnone, by rw [grown, hput, grown]⟩⟩

theorem at?_grown {t : FileTree} {pieces place other : List String}
    (havoid : ∀ p ∈ walk pieces place, ¬ other <+: p) : (t.grown pieces place).at? other = t.at? other := by
  induction pieces generalizing t place with
  | nil => rw [grown_nil]
  | cons piece rest ih =>
    have hrest : ∀ p ∈ walk rest (step place piece), ¬ other <+: p := fun p hp =>
      havoid p (List.mem_cons_of_mem _ hp)
    rcases grown_cons t piece rest place with hstop | ⟨-, hsame | ⟨hnone, hput⟩⟩
    · rw [hstop]
    · rw [hsame, ih hrest]
    · rw [hput, ih hrest]
      exact at?_put_of_not_below isLeaf_emptyFolder (by simp [hnone]) (hrest _ (mem_walk_self _ _))

theorem slotOf?_eq_arrival {t : FileTree} {pieces place : List String}
    (h : t.slotOf? pieces = some place) : place = arrival pieces [] := by
  rw [slotOf?] at h
  split at h
  · next name parent hlast hparent =>
    split at h
    · cases h
    · next hname =>
      split at h
      · have hproper : Proper name := by simpa [Proper, and_assoc] using hname
        obtain ⟨front, hfront⟩ := List.getLast?_eq_some_iff.mp hlast
        rw [hfront, List.dropLast_concat] at hparent
        rw [hfront, arrival_append, ← Option.some.inj h, follow_eq_arrival hparent]
        exact (step_of_proper hproper _).symm
      · cases h
  · cases h

theorem writeText_ok {t t' : FileTree} {path text : String} (h : t.writeText path text = .ok t') :
    ∃ place, t.slot? path = some place ∧ ¬ (t.at? place).any isFolder = true ∧
      t' = t.put place (.file text) := by
  rw [writeText] at h
  split at h
  · cases h
  · next place hplace =>
    split at h
    · cases h
    · next hfolder => exact ⟨place, hplace, hfolder, (Except.ok.inj h).symm⟩

theorem at?_writeText {t t' : FileTree} {path text : String} {other : List String}
    (h : t.writeText path text = .ok t') (havoid : Avoids path other) :
    t'.at? other = t.at? other := by
  obtain ⟨place, hplace, hfolder, rfl⟩ := writeText_ok h
  refine at?_put_of_not_below (isLeaf_file text) hfolder (havoid place ?_)
  rw [slotOf?_eq_arrival hplace]
  exact arrival_mem_walk _ _

theorem exists_text_of_hasFile {t : FileTree} {path : String} (h : t.hasFile path = true) :
    ∃ text, t.lookAt? path = some (.file text) := by
  rw [hasFile] at h
  rcases hu : t.lookAt? path with - | text | es
  · rw [hu] at h
    cases h
  · exact ⟨text, rfl⟩
  · rw [hu] at h
    cases h

theorem hasFile_of_lookAt {t : FileTree} {path text : String}
    (h : t.lookAt? path = some (.file text)) :
    t.hasFile path = true ∧ t.readText path = .ok text := by
  rw [hasFile, readText, h]
  exact ⟨rfl, rfl⟩

end FileTree

end ClassSchema
