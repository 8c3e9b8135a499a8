import ClassSchema.Proofs.Files.Kinds
import ClassSchema.Proofs.Store.Cache
import ClassSchema.Proofs.Value.ReadBack
import Mathlib.Data.List.Induction

/-!
# The cache and its file

What a cache answers, next to what its file holds. A change that is written out brings the two together.
One that cannot be written stays in memory, so that the cache takes it for done from then on.
-/

namespace ClassSchema.SignatureCache

/-! ### The text of a cache file -/

theorem decodeEntries_strings (es : List (String × String)) :
    Value.decodeEntries Value.asString (es.map fun e => (e.1, .string e.2)) = some es := by
  induction es with
  | nil => rfl
  | cons e es ih =>
    rw [List.map_cons, Value.decodeEntries, ih]
    rfl

theorem trimmedChars_cons {ch : Char} (h : isBlank ch = false) (s : List Char) :
    trimmedChars (ch :: s) ≠ [] := by
  rw [trimmedChars, List.dropWhile_cons_of_neg (by simp [h]), dropLastWhile, ne_eq,
    List.reverse_eq_nil_iff, List.dropWhile_eq_nil_iff]
  intro hall
  have := hall ch (by simp)
  rw [h] at this
  cases this

/-- The entries of a cache are read back from its text. -/
theorem readEntries_text {c : SignatureCache} (h : c.entries.Sorted) :
    readEntries c.text = .ok c.entries := by
  let v := Value.table (c.entries.map .string)
  have hnumbers : v.numbers = [] := by
    rw [Value.numbers]
    refine Value.entryNumbers_eq_nil fun e he => ?_
    obtain ⟨f, -, rfl⟩ := List.mem_map.mp he
    rfl
  have hnesting : v.nesting ≤ Datum.greatestDepth := by
    have hentries : Value.entryNesting (c.entries.map Value.string).entries ≤ 0 := by
      refine Value.entryNesting_le fun e he => ?_
      obtain ⟨f, -, rfl⟩ := List.mem_map.mp he
      exact le_rfl
    rw [Value.nesting]
    exact (Nat.succ_le_succ hentries).trans (by decide)
  have hread : Value.ofText? c.text = some v := by
    have hdatum := Datum.ofText?_prettyText (v := v) (by simp [hnumbers])
    rw [Value.ofText?, Value.ofChars?, ← Datum.ofText?, text, hdatum, Option.bind_some,
      Datum.value?_ofValue hnesting]
  have hdecode : Value.asDict Value.asString v = some c.entries := by
    have hstrings := decodeEntries_strings c.entries.entries
    simp only [v, Value.asDict, Value.table?, Dict.map, Option.bind_eq_bind, Option.bind_some,
      hstrings]
    exact congrArg some h.ofList_entries
  have hblank : (trimmedChars c.text.toList).isEmpty = false := by
    have hopen : ∃ s, c.text.toList = '{' :: s := by
      rw [text, Value.prettyText, String.toList_ofList]
      rcases c.entries.map Value.string with ⟨- | ⟨e, es⟩⟩
      · exact ⟨_, rfl⟩
      · exact ⟨_, rfl⟩
    obtain ⟨s, hs⟩ := hopen
    rw [hs, List.isEmpty_eq_false_iff]
    exact trimmedChars_cons (by decide) s
  rw [readEntries, hblank, hread, Option.bind_some, hdecode]
  rfl

variable {path : String} {t t' : FileTree} {c : SignatureCache} {s : StoreState}

theorem openAt_flush (hpath : c.path = some path) (hsorted : c.entries.Sorted)
    (h : c.flush t = .ok t') : openAt t' path = .ok c := by
  rcases flush_cases c t with ⟨hnone, -⟩ | ⟨p, hp, hflush | ⟨made, t₁, -, hwrite, hflush⟩⟩
  · rw [hpath] at hnone
    cases hnone
  · rw [hflush] at h
    cases h
  · obtain rfl := Option.some.inj (hpath.symm.trans hp)
    rw [hflush] at h
    obtain rfl := Except.ok.inj h
    obtain ⟨hfile, hread⟩ := FileTree.hasFile_of_lookAt (FileTree.lookAt?_writeText hwrite)
    rw [openAt, if_pos hfile, hread]
    dsimp only
    rw [readEntries_text hsorted, ← hpath]

theorem sorted_readEntries {text : String} {entries : Dict String}
    (h : readEntries text = .ok entries) : entries.Sorted := by
  rw [readEntries] at h
  split at h
  · rw [← Except.ok.inj h]
    exact Dict.sorted_empty
  · split at h
    · next d hd =>
      obtain ⟨v, -, hdict⟩ := Option.bind_eq_some_iff.mp hd
      obtain ⟨fields, -, hfields⟩ := Option.bind_eq_some_iff.mp hdict
      obtain ⟨es, -, hes⟩ := Option.bind_eq_some_iff.mp hfields
      rw [← Except.ok.inj h, ← Option.some.inj hes]
      exact Dict.sorted_ofList es
    · cases h

theorem of_openAt (h : openAt t path = .ok c) : c.path = some path ∧ c.entries.Sorted := by
  rw [openAt] at h
  split at h
  · split at h
    · cases h
    · split at h
      · cases h
      · next entries hentries =>
        rw [← Except.ok.inj h]
        exact ⟨rfl, sorted_readEntries hentries⟩
  · rw [← Except.ok.inj h]
    exact ⟨rfl, Dict.sorted_empty⟩

/-- The tree where as many pieces of the way to the cache file as given have been made into folders. -/
def begun (c : SignatureCache) (n : Nat) (t : FileTree) : FileTree :=
  match c.path with
  | none => t
  | some path => t.grown ((Path.pieces (Path.parent path)).take n) []

theorem exists_begun_of_flush {left : FileTree} (h : c.flush t = .error left) :
    ∃ n, left = c.begun n t := by
  rcases flush_cases c t with ⟨-, hflush⟩ | ⟨p, hp, hflush | ⟨made, t₁, -, -, hflush⟩⟩
  · rw [hflush] at h
    cases h
  · refine ⟨(Path.pieces (Path.parent p)).length, ?_⟩
    rw [hflush] at h
    rw [begun, hp]
    dsimp only
    rw [List.take_length]
    exact (Except.error.inj h).symm
  · rw [hflush] at h
    cases h

theorem contentAt_begun (hpath : c.path = some path) (n : Nat) (t : FileTree) (place : List String) :
    (c.begun n t).contentAt place = t.contentAt place ∨
      place ∈ Path.walk (Path.pieces (Path.parent path)) [] ∧ t.contentAt place = none ∧
        (c.begun n t).contentAt place = some none := by
  rw [begun, hpath]
  refine (FileTree.contentAt_grown t _ [] place).imp_right fun h => ⟨?_, h.2⟩
  have hway := Path.mem_walk_append ((Path.pieces (Path.parent path)).drop n) h.1
  rwa [List.take_append_drop] at hway

theorem openAt_begun (hpath : c.path = some path) {n : Nat}
    (hsame : (c.begun n t).hasFile path = t.hasFile path) : openAt (c.begun n t) path = openAt t path := by
  rw [openAt, openAt, hsame]
  by_cases hfile : t.hasFile path = true
  · have hkept : (c.begun n t).lookAt? path = t.lookAt? path := by
      obtain ⟨text, htext⟩ := FileTree.exists_text_of_hasFile hfile
      rw [htext, begun, hpath]
      exact FileTree.lookAt?_grown htext _ []
    rw [FileTree.readText, FileTree.readText, hkept]
  · rw [if_neg hfile, if_neg hfile]

/-! ### Changes, written out or refused -/

inductive Change where
  | put (key value : String)
  | delete (key : String)
  | clear

namespace Change

/-- The entries after a change. -/
def entries (d : Dict String) : Change → Dict String
  | .put key value => d.insert key value
  | .delete key => d.erase key
  | .clear => .empty

/-- A cache after a change. -/
def applied (ch : Change) (c : SignatureCache) : SignatureCache :=
  { c with entries := ch.entries c.entries }

/-- Whether a change is made and written out: one that the entries show already is not. -/
def isDue (d : Dict String) : Change → Bool
  | .put key value => d.get? key ≠ some value
  | .delete key => d.contains key
  | .clear => true

/-- A write that fails for a reason that the files do not show, such as a full disk, and how many pieces
of the way to the file it gets past before. -/
structure Refusal where
  fault : Fault
  pieces : Nat

/-- Writes the cache to its file, unless that is refused; with a fault comes the tree that is left. -/
def written (refusal : Option Refusal) (c : SignatureCache) (t : FileTree) :
    Except (Fault × FileTree) FileTree :=
  match refusal with
  | some r => .error (r.fault, c.begun r.pieces t)
  | none =>
    match c.flush t with
    | .ok tree => .ok tree
    | .error left => .error (.io, left)

/-- Makes a change and writes it out. -/
def attempt (refusal : Option Refusal) (ch : Change) : Storing Unit := fun s =>
  if ch.isDue s.cache.entries then
    match written refusal (ch.applied s.cache) s.tree with
    | .ok tree => .ok () ⟨tree, ch.applied s.cache⟩
    | .error (e, left) => .error e ⟨left, ch.applied s.cache⟩
  else .ok () s

theorem attempt_of_due {ch : Change} (h : ch.isDue s.cache.entries = true) :
    ch.attempt none s = replace (ch.entries s.cache.entries) s := by
  rw [attempt, if_pos h, written, replace]
  dsimp only [applied]
  cases ({ s.cache with entries := ch.entries s.cache.entries } : SignatureCache).flush s.tree <;> rfl

theorem attempt_put (key value : String) :
    (Change.put key value).attempt none = SignatureCache.put key value := by
  funext s
  rw [SignatureCache.put]
  split_ifs with hsame
  · exact if_neg (by simpa [isDue, SignatureCache.get?] using hsame)
  · exact attempt_of_due (by simpa [isDue, SignatureCache.get?] using hsame)

theorem attempt_delete (key : String) :
    (Change.delete key).attempt none = SignatureCache.delete key := by
  funext s
  rw [SignatureCache.delete]
  split_ifs with hthere
  · exact attempt_of_due hthere
  · exact if_neg hthere

theorem attempt_clear : Change.clear.attempt none = SignatureCache.clear := by
  funext s
  exact attempt_of_due rfl

theorem attempt_of_flush_error {ch : Change} {left : FileTree}
    (h : (ch.applied s.cache).flush s.tree = .error left) :
    ∃ n, ch.attempt none s = ch.attempt (some ⟨.io, n⟩) s := by
  obtain ⟨n, rfl⟩ := exists_begun_of_flush h
  refine ⟨n, ?_⟩
  rw [attempt, attempt, written, written, h]

/-- A change is passed over, or written out, or stays in memory with an error. -/
theorem attempt_cases (refusal : Option Refusal) (ch : Change) (s : StoreState) :
    (ch.isDue s.cache.entries = false ∧ ch.attempt refusal s = .ok () s) ∨
      (∃ tree, (ch.applied s.cache).flush s.tree = .ok tree ∧
        ch.attempt refusal s = .ok () ⟨tree, ch.applied s.cache⟩) ∨
      ch.isDue s.cache.entries = true ∧
        ∃ e n, ch.attempt refusal s = .error e ⟨s.cache.begun n s.tree, ch.applied s.cache⟩ := by
  rw [attempt]
  cases hdue : ch.isDue s.cache.entries with
  | false => exact .inl ⟨rfl, if_neg Bool.false_ne_true⟩
  | true =>
    rw [if_pos rfl]
    right
    cases refusal with
    | some r => exact .inr ⟨rfl, r.fault, r.pieces, rfl⟩
    | none =>
      rw [written]
      cases hflush : (ch.applied s.cache).flush s.tree with
      | ok tree => exact .inl ⟨tree, rfl, rfl⟩
      | error left =>
        obtain ⟨n, rfl⟩ := exists_begun_of_flush hflush
        exact .inr ⟨rfl, .io, n, rfl⟩

variable {d : Dict String} {ch : Change}

theorem Sorted.entries (h : d.Sorted) (ch : Change) : (ch.entries d).Sorted := by
  cases ch with
  | put key value => exact h.insert key value
  | delete key => exact h.erase key
  | clear => exact Dict.sorted_empty

theorem entries_of_not_due (h : d.Sorted) (hdue : ch.isDue d = false) : ch.entries d = d := by
  cases ch with
  | put key value => exact h.insert_get? (by simpa [isDue] using hdue)
  | delete key =>
    refine Dict.Sorted.ext (h.erase key) h fun name => ?_
    rw [entries, Dict.get?_erase]
    split
    · next hname =>
      rw [hname]
      have habsent : d.get? key = none := by simpa [isDue, Dict.contains] using hdue
      exact habsent.symm
    · rfl
  | clear => cases hdue

theorem entries_eq_iff_of_due (hdue : ch.isDue d = true) :
    ch.entries d = d ↔ ch = .clear ∧ d = .empty := by
  cases ch with
  | put key value =>
    simp only [reduceCtorEq, false_and, iff_false]
    intro h
    have hget := congrArg (·.get? key) h
    simp only [entries, Dict.get?_insert, if_true] at hget
    simp [isDue, ← hget] at hdue
  | delete key =>
    simp only [reduceCtorEq, false_and, iff_false]
    intro h
    have hget := congrArg (·.get? key) h
    simp only [entries, Dict.get?_erase, if_true] at hget
    simp [isDue, Dict.contains, ← hget] at hdue
  | clear => simp [entries, eq_comm]

theorem isDue_entries (d : Dict String) (hch : ch ≠ .clear) : ch.isDue (ch.entries d) = false := by
  cases ch with
  | put key value => simp [isDue, entries]
  | delete key => simp [isDue, entries, Dict.contains]
  | clear => exact absurd rfl hch

end Change

/-! ### Sequences of uses -/

/-- A change, which may be refused, or opening the file anew. -/
inductive Use where
  | change (ch : Change) (refusal : Option Change.Refusal)
  | reopen

/-- What a use of the cache at a path does. -/
def Use.run (path : String) : Use → Storing Unit
  | .change ch refusal => ch.attempt refusal
  | .reopen => fun s =>
    match openAt s.tree path with
    | .ok cache => .ok () { s with cache }
    | .error e => .error e s

def Use.Fails (path : String) (u : Use) (s : StoreState) : Prop := ∃ e s', u.run path s = .error e s'

/-- The state after some uses, each made however the ones before went. -/
def afterUses (path : String) (uses : List Use) (s : StoreState) : StoreState :=
  uses.foldl (fun s u => Storing.after (u.run path) s) s

theorem afterUses_concat (path : String) (uses : List Use) (u : Use) (s : StoreState) :
    afterUses path (uses ++ [u]) s = Storing.after (u.run path) (afterUses path uses s) := by
  rw [afterUses, List.foldl_append]
  rfl

/-- The cache answers as the one that opening its file would give. -/
def Mirrored (path : String) (s : StoreState) : Prop :=
  ∃ c, openAt s.tree path = .ok c ∧ (∀ key, s.cache.get? key = c.get? key) ∧
    s.cache.entries.keys = c.entries.keys

/-- A cache that is kept at a path. -/
structure Kept (path : String) (s : StoreState) : Prop where
  located : s.cache.path = some path
  sorted : s.cache.entries.Sorted

theorem Kept.mirrored_iff (h : Kept path s) : Mirrored path s ↔ openAt s.tree path = .ok s.cache := by
  constructor
  · rintro ⟨c, hc, hget, -⟩
    obtain ⟨hpath, hsorted⟩ := of_openAt hc
    have hentries : s.cache.entries = c.entries := Dict.Sorted.ext h.sorted hsorted hget
    have hcache : s.cache = c := by
      change (⟨s.cache.path, s.cache.entries⟩ : SignatureCache) = ⟨c.path, c.entries⟩
      rw [h.located, hpath, hentries]
    rw [hc, hcache]
  · intro hopen
    exact ⟨s.cache, hopen, fun _ => rfl, rfl⟩

theorem kept_of_openAt (h : openAt t path = .ok c) : Kept path ⟨t, c⟩ :=
  ⟨(of_openAt h).1, (of_openAt h).2⟩

theorem run_reopen (h : openAt s.tree path = .ok c) :
    Use.reopen.run path s = .ok () { s with cache := c } := by
  change (match openAt s.tree path with
    | .ok cache => EStateM.Result.ok () { s with cache }
    | .error e => .error e s) = _
  rw [h]

theorem run_reopen_error {e : Fault} (h : openAt s.tree path = .error e) :
    Use.reopen.run path s = .error e s := by
  change (match openAt s.tree path with
    | .ok cache => EStateM.Result.ok () { s with cache }
    | .error e => .error e s) = _
  rw [h]

theorem of_change_fails {ch : Change} {refusal : Option Change.Refusal}
    (hfails : (Use.change ch refusal).Fails path s) : ch.isDue s.cache.entries = true ∧
      ∃ n, Storing.after (ch.attempt refusal) s = ⟨s.cache.begun n s.tree, ch.applied s.cache⟩ := by
  obtain ⟨e, s', hrun⟩ := hfails
  rw [Use.run] at hrun
  rcases Change.attempt_cases refusal ch s with ⟨-, hok⟩ | ⟨tree, -, hok⟩ | ⟨hdue, f, n, herror⟩
  · rw [hok] at hrun
    cases hrun
  · rw [hok] at hrun
    cases hrun
  · exact ⟨hdue, n, Storing.after_of_error herror⟩

theorem Kept.openAt_of_not_fails {u : Use} (h : Kept path s) (hsame : openAt s.tree path = .ok s.cache)
    (hok : ¬ u.Fails path s) :
    openAt (Storing.after (u.run path) s).tree path = .ok (Storing.after (u.run path) s).cache := by
  cases u with
  | change ch refusal =>
    rcases Change.attempt_cases refusal ch s with ⟨-, hrun⟩ | ⟨tree, hflush, hrun⟩ | ⟨-, e, n, hrun⟩
    · rw [Use.run, Storing.after_of_ok hrun]
      exact hsame
    · rw [Use.run, Storing.after_of_ok hrun]
      exact openAt_flush h.located (Change.Sorted.entries h.sorted ch) hflush
    · exact absurd ⟨e, _, hrun⟩ hok
  | reopen =>
    rw [Storing.after_of_ok (run_reopen hsame)]
    exact hsame

theorem Kept.after_run (h : Kept path s) (u : Use) : Kept path (Storing.after (u.run path) s) := by
  cases u with
  | change ch refusal =>
    have hsorted := Change.Sorted.entries h.sorted ch
    rcases Change.attempt_cases refusal ch s with ⟨-, hrun⟩ | ⟨tree, -, hrun⟩ | ⟨-, e, n, hrun⟩
    · rw [Use.run, Storing.after_of_ok hrun]
      exact h
    · rw [Use.run, Storing.after_of_ok hrun]
      exact ⟨h.located, hsorted⟩
    · rw [Use.run, Storing.after_of_error hrun]
      exact ⟨h.located, hsorted⟩
  | reopen =>
    cases hopen : openAt s.tree path with
    | ok c =>
      rw [Storing.after_of_ok (run_reopen hopen)]
      exact ⟨(of_openAt hopen).1, (of_openAt hopen).2⟩
    | error e =>
      rw [Storing.after_of_error (run_reopen_error hopen)]
      exact h

theorem Kept.afterUses (h : Kept path s) (uses : List Use) : Kept path (afterUses path uses s) := by
  induction uses using List.reverseRecOn with
  | nil => exact h
  | append_singleton uses u ih =>
    rw [afterUses_concat]
    exact ih.after_run u

/-- Whether a use that fails leaves cache and file the same: it tried to clear an empty cache. Only where the
folders that it made let the path reach a file for the first time, that file must hold what was to be
written. -/
def Use.Idle (path : String) (u : Use) (s : StoreState) : Prop :=
  ∃ ch refusal, u = .change ch refusal ∧
    let left := (Storing.after (u.run path) s).tree
    if left.hasFile path = s.tree.hasFile path then ch = .clear ∧ s.cache.entries = .empty
    else openAt left path = .ok (ch.applied s.cache)

theorem Kept.openAt_of_fails_iff {ch : Change} {refusal : Option Change.Refusal} (h : Kept path s)
    (hsame : openAt s.tree path = .ok s.cache) (hfails : (Use.change ch refusal).Fails path s)
    {s' : StoreState} (hs' : s' = Storing.after (ch.attempt refusal) s) :
    openAt s'.tree path = .ok s'.cache ↔ (Use.change ch refusal).Idle path s := by
  obtain ⟨hdue, n, hafter⟩ := of_change_fails hfails
  have hidle : (Use.change ch refusal).Idle path s ↔
      if s'.tree.hasFile path = s.tree.hasFile path then ch = .clear ∧ s.cache.entries = .empty
      else openAt s'.tree path = .ok (ch.applied s.cache) := by
    rw [hs']
    constructor
    · rintro ⟨ch', refusal', hu, hcase⟩
      obtain ⟨rfl, -⟩ := Use.change.inj hu
      exact hcase
    · intro hcase
      exact ⟨ch, refusal, rfl, hcase⟩
  rw [hafter] at hs'
  subst hs'
  rw [hidle]
  split_ifs with hfile
  · rw [openAt_begun h.located hfile, hsame, ← Change.entries_eq_iff_of_due hdue, Except.ok.injEq, eq_comm]
    constructor
    · exact congrArg SignatureCache.entries
    · intro hentries
      rw [Change.applied, hentries]
  · exact Iff.rfl

/-- One use keeps the cache as its file says unless it fails and is not idle. -/
theorem Kept.mirrored_after_iff (h : Kept path s) (hsame : Mirrored path s) (u : Use) :
    Mirrored path (Storing.after (u.run path) s) ↔ (u.Fails path s → u.Idle path s) := by
  rw [(h.after_run u).mirrored_iff]
  rw [h.mirrored_iff] at hsame
  by_cases hfails : u.Fails path s
  · cases u with
    | change ch refusal =>
      have hidle := h.openAt_of_fails_iff hsame hfails rfl
      exact ⟨fun hopen _ => hidle.mp hopen, fun hall => hidle.mpr (hall hfails)⟩
    | reopen =>
      obtain ⟨e, s', hrun⟩ := hfails
      rw [run_reopen hsame] at hrun
      cases hrun
  · exact iff_of_true (h.openAt_of_not_fails hsame hfails) fun hf => absurd hf hfails

/-- A sequence of uses, from opening the cache on, keeps it as its file says all the way exactly when
each use that fails is idle. -/
theorem mirrored_throughout_iff (h : openAt t path = .ok c) (uses : List Use) :
    (∀ done, done <+: uses → Mirrored path (afterUses path done ⟨t, c⟩)) ↔
      ∀ done u, done ++ [u] <+: uses → u.Fails path (afterUses path done ⟨t, c⟩) →
        u.Idle path (afterUses path done ⟨t, c⟩) := by
  have hkept (done : List Use) := (kept_of_openAt h).afterUses done
  constructor
  · intro hall done u hprefix
    have hstep := hall _ hprefix
    rw [afterUses_concat] at hstep
    exact ((hkept done).mirrored_after_iff (hall done ((List.prefix_append _ _).trans hprefix)) u).mp
      hstep
  · intro hidle done
    induction done using List.reverseRecOn with
    | nil => exact fun _ => (kept_of_openAt h).mirrored_iff.mpr h
    | append_singleton done u ih =>
      intro hprefix
      have hdone := ih ((List.prefix_append _ _).trans hprefix)
      rw [afterUses_concat]
      exact ((hkept done).mirrored_after_iff hdone u).mpr (hidle done u hprefix)

/-! ### Next to a cache in memory -/

/-- The changes among some uses. -/
def changes (uses : List Use) : List Change :=
  uses.filterMap fun
    | .change ch _ => some ch
    | .reopen => none

/-- The entries of a cache that is kept in no file, after some changes. -/
def entriesInMemory (d : Dict String) (chs : List Change) : Dict String :=
  (chs.foldl (fun s ch => Storing.after (ch.attempt none) s) ⟨.emptyFolder, ⟨none, d⟩⟩).cache.entries

theorem after_attempt_inMemory {d : Dict String} (h : d.Sorted) (ch : Change) :
    Storing.after (ch.attempt none) ⟨t, ⟨none, d⟩⟩ = ⟨t, ⟨none, ch.entries d⟩⟩ := by
  rw [Storing.after, Change.attempt]
  cases hdue : ch.isDue d with
  | false => rw [if_neg Bool.false_ne_true, Change.entries_of_not_due h hdue]
  | true => rfl

theorem entriesInMemory_eq {d : Dict String} (h : d.Sorted) (chs : List Change) :
    entriesInMemory d chs = chs.foldl (fun d ch => ch.entries d) d := by
  rw [entriesInMemory]
  induction chs generalizing d with
  | nil => rfl
  | cons ch chs ih =>
    rw [List.foldl_cons, after_attempt_inMemory h, ih (Change.Sorted.entries h ch)]
    rfl

theorem entries_afterUses (h : openAt t path = .ok c) {uses : List Use}
    (hok : ∀ done u, done ++ [u] <+: uses → ¬ u.Fails path (afterUses path done ⟨t, c⟩)) :
    (afterUses path uses ⟨t, c⟩).cache.entries = entriesInMemory c.entries (changes uses) := by
  rw [entriesInMemory_eq (of_openAt h).2]
  induction uses using List.reverseRecOn with
  | nil => rfl
  | append_singleton uses u ih =>
    have hbefore (done : List Use) (v : Use) (hv : done ++ [v] <+: uses) :=
      hok done v (hv.trans (List.prefix_append _ _))
    have hlast := hok uses u (List.prefix_refl _)
    have hentries := ih hbefore
    have hsame := (mirrored_throughout_iff h uses).mpr
      (fun done v hv hf => absurd hf (hbefore done v hv)) uses (List.prefix_refl _)
    have hkept := (kept_of_openAt h).afterUses uses
    rw [afterUses_concat, changes, List.filterMap_append, List.foldl_append, ← changes, ← hentries]
    cases u with
    | change ch refusal =>
      rcases Change.attempt_cases refusal ch (afterUses path uses ⟨t, c⟩) with
        ⟨hdue, hrun⟩ | ⟨tree, -, hrun⟩ | ⟨-, e, n, hrun⟩
      · rw [Use.run, Storing.after_of_ok hrun]
        exact (Change.entries_of_not_due hkept.sorted hdue).symm
      · rw [Use.run, Storing.after_of_ok hrun]
        rfl
      · exact absurd ⟨e, _, hrun⟩ hlast
    | reopen =>
      rw [Storing.after_of_ok (run_reopen (hkept.mirrored_iff.mp hsame))]
      rfl

/-- A change that fails stays in memory all the same; a put or a delete looks done from then on, and to
repeat it does nothing, whether it could be written by then or not. Of the files, all stays as it was but
for new folders on the way. -/
theorem Kept.of_fails (h : Kept path s) {ch : Change} {refusal : Option Change.Refusal}
    (hfails : (Use.change ch refusal).Fails path s) {s' : StoreState}
    (hs' : s' = Storing.after (ch.attempt refusal) s) :
    (∀ place, s'.tree.contentAt place = s.tree.contentAt place ∨
        place ∈ Path.walk (Path.pieces (Path.parent path)) [] ∧ s.tree.contentAt place = none ∧
          s'.tree.contentAt place = some none) ∧
      s'.cache.entries = ch.entries s.cache.entries ∧
      (ch ≠ .clear → ∀ again, ch.attempt again s' = .ok () s') := by
  obtain ⟨-, n, hafter⟩ := of_change_fails hfails
  rw [hafter] at hs'
  subst hs'
  refine ⟨contentAt_begun h.located n s.tree, rfl, fun hch again => ?_⟩
  have hdone : ¬ ch.isDue (ch.applied s.cache).entries = true := by
    simp [Change.applied, Change.isDue_entries _ hch]
  rw [Change.attempt, if_neg hdone]

/-- A cache is opened and used in any way, where each write may fail. Throughout it answers as its file,
opened anew, would, exactly when no use fails but a clearing of an empty cache. Any other change that
fails is visible all the same, and a put or delete that failed is passed over when it is repeated, as if
it were done; the files stay as they were, but for new folders on the way to the cache file. Where no use
fails, a cache that is kept in no file answers the same. -/
theorem mirrored_uses (h : openAt t path = .ok c) (uses : List Use) :
    ((∀ done, done <+: uses → Mirrored path (afterUses path done ⟨t, c⟩)) ↔
        ∀ done u, done ++ [u] <+: uses → u.Fails path (afterUses path done ⟨t, c⟩) →
          u.Idle path (afterUses path done ⟨t, c⟩)) ∧
      (∀ ch refusal, (Use.change ch refusal).Fails path (afterUses path uses ⟨t, c⟩) →
        let s := afterUses path uses ⟨t, c⟩
        let s' := afterUses path (uses ++ [.change ch refusal]) ⟨t, c⟩
        (∀ place, s'.tree.contentAt place = s.tree.contentAt place ∨
            place ∈ Path.walk (Path.pieces (Path.parent path)) [] ∧ s.tree.contentAt place = none ∧
              s'.tree.contentAt place = some none) ∧
          s'.cache.entries = ch.entries s.cache.entries ∧
          (ch ≠ .clear → ∀ again, ch.attempt again s' = .ok () s')) ∧
      ((∀ done u, done ++ [u] <+: uses → ¬ u.Fails path (afterUses path done ⟨t, c⟩)) →
        (afterUses path uses ⟨t, c⟩).cache.entries = entriesInMemory c.entries (changes uses)) := by
  refine ⟨mirrored_throughout_iff h uses, ?_, entries_afterUses h⟩
  intro ch refusal hfails
  exact ((kept_of_openAt h).afterUses uses).of_fails hfails (afterUses_concat _ _ _ _)

/-- A folder stands where the cache file would be, so that nothing can be written. -/
def blockedTree : FileTree := .folder ⟨[("sig.json", .emptyFolder)]⟩

theorem mirrored_uses_blocked :
    openAt blockedTree "/sig.json" = .ok ⟨some "/sig.json", .empty⟩ ∧
      ¬ ∀ done, done <+: [Use.change (.put "n" "v") none] →
        Mirrored "/sig.json" (afterUses "/sig.json" done ⟨blockedTree, ⟨some "/sig.json", .empty⟩⟩) := by
  have hopen : openAt blockedTree "/sig.json" = .ok ⟨some "/sig.json", .empty⟩ := rfl
  refine ⟨hopen, fun hall => ?_⟩
  have hidle := (mirrored_uses hopen [.change (.put "n" "v") none]).1.mp hall [] _ (List.prefix_refl _)
    ⟨.io, _, rfl⟩
  obtain ⟨ch, refusal, hu, hidle⟩ := hidle
  obtain ⟨rfl, rfl⟩ := Use.change.inj hu
  cases hidle.1

/-- A signature that could not be written is answered, and its second put goes well without being
written. The cache that is opened anew does not have it. -/
theorem not_mirrored_blocked :
    ∃ s, openAt blockedTree "/sig.json" = .ok ⟨some "/sig.json", .empty⟩ ∧
      put "n" "v" ⟨blockedTree, ⟨some "/sig.json", .empty⟩⟩ = .error .io s ∧
      s.cache.get? "n" = some "v" ∧ put "n" "v" s = .ok () s ∧
      openAt s.tree "/sig.json" = .ok ⟨some "/sig.json", .empty⟩ :=
  ⟨_, rfl, rfl, rfl, rfl, rfl⟩

end ClassSchema.SignatureCache
