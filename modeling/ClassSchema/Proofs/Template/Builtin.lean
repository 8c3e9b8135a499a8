import ClassSchema.Artifact.Scope
import ClassSchema.Proofs.Value.Canonical
import ClassSchema.Template.Library

/-!
# What the built-in templates print

The text that the built-in template of its kind gives a definition, part by part. Rendering never
fails.
-/

namespace ClassSchema

namespace Template

/-- A scope inside a table, where no block has named anything. -/
structure Inside (s : Scope) (d : Dict Value) : Prop where
  item : s.itemAt 0 = .table d
  unnamed : ∀ name, namedIn? name s.frames = none

theorem inside_ofTop (d : Dict Value) : Inside (.ofTop (.table d)) d := ⟨rfl, fun _ => rfl⟩

variable {s : Scope} {d : Dict Value} {name : String}

theorem Inside.push (h : Inside s d) (e places : Dict Value) :
    Inside (s.push ⟨.table e, places, []⟩) e where
  item := rfl
  unnamed := h.unnamed

theorem Inside.find? (h : Inside s d) (name : String) :
    s.find? (.member name) = some (.ofOption (d.get? name)) := by
  simp only [Scope.find?, Reference.member, h.unnamed, h.item]
  rfl

theorem renderAll_nil (s : Scope) : renderAll s [] = some "" := by rw [renderAll]

theorem renderAll_cons {n : Node} {ns : List Node} {t u : List Char}
    (hn : n.render s = some (String.ofList t)) (hns : renderAll s ns = some (String.ofList u)) :
    renderAll s (n :: ns) = some (String.ofList (t ++ u)) := by
  rw [renderAll, hn, hns, String.ofList_append]
  rfl

theorem render_text (t : String) : (Node.text t).render s = some (String.ofList t.toList) := by
  rw [Node.render, String.ofList_toList]

namespace Builtin

theorem Inside.print (h : Inside s d) (name : String) (hname : Helper.ofName? name = none) :
    (print name).render s = some (String.ofList (shown (.ofOption (d.get? name)))) := by
  have hwritten : (Reference.member name).written = name := rfl
  rw [Builtin.print, Node.render, member, printed?, hwritten, hname, h.find?]
  rfl

theorem counts_nil (v : Value) : counts [] v = isTruthy v := by cases v <;> rfl

theorem effect?_if (h : Inside s d) (name : String) :
    Opening.effect? ⟨"if", [member name], [], []⟩ s =
      some (.choose (isTruthy (.ofOption (d.get? name)))) := by
  have hhelper : Helper.ofName? "if" = some (.choice true) := rfl
  rw [Opening.effect?, hhelper]
  simp [paramValues?, optionValues?, Param.value?, member, h.find?, Helper.effect?, counts_nil]

theorem Inside.whenGiven (h : Inside s d) {body : List Node} {t : List Char}
    (ht : renderAll s body = some (String.ofList t)) :
    (whenGiven name body).render s =
      some (String.ofList (if isTruthy (.ofOption (d.get? name)) then t else [])) := by
  rw [Builtin.whenGiven, Node.render, effect?_if h]
  cases isTruthy (.ofOption (d.get? name)) with
  | true => exact ht
  | false => exact renderAll_nil s

theorem joined_map {α : Type} {f : α → Option String} {t : α → List Char} {xs : List α}
    (h : ∀ x ∈ xs, f x = some (String.ofList (t x))) :
    joined (xs.map f) = some (String.ofList (xs.flatMap t)) := by
  induction xs with
  | nil => rfl
  | cons x xs ih =>
    rw [List.map_cons, h x List.mem_cons_self, joined, ih fun y hy => h y (List.mem_cons_of_mem _ hy),
      List.flatMap_cons, String.ofList_append]
    rfl

theorem Inside.forEach {α : Type} (h : Inside s d) {xs : List α} {pairs : α → List (String × Value)}
    (hget : d.get? name = some (.list (xs.map fun x => .ofPairs (pairs x)))) {body : List Node}
    {t : α → List Char}
    (ht : ∀ x ∈ xs, ∀ s', Inside s' (.ofList (pairs x)) →
      renderAll s' body = some (String.ofList (t x))) :
    (forEach name body).render s = some (String.ofList (xs.flatMap t)) := by
  have heffect : Opening.effect? ⟨"each", [member name], [], []⟩ s =
      Helper.each.effect? [] [.list (xs.map fun x => .ofPairs (pairs x))] [] := by
    have hhelper : Helper.ofName? "each" = some .each := rfl
    rw [Opening.effect?, hhelper]
    simp [paramValues?, optionValues?, Param.value?, member, h.find?, hget, Value.ofOption]
  have hframes : itemFrames [] (.list (xs.map fun x => .ofPairs (pairs x))) =
      xs.zipIdx.map fun e => ⟨.ofPairs (pairs e.1), placeOf e.2 xs.length, []⟩ := by
    rw [itemFrames, List.zipIdx_map, List.map_map, List.length_map]
    rfl
  have hjoined : joined ((itemFrames [] (.list (xs.map fun x => .ofPairs (pairs x)))).map
      fun f => renderAll (s.push f) body) = some (String.ofList (xs.flatMap t)) := by
    rw [hframes, List.map_map, joined_map (t := fun e => t e.1)]
    · rw [← List.flatMap_map Prod.fst t, List.zipIdx_map_fst]
    · intro e he
      exact ht e.1 (List.fst_mem_of_mem_zipIdx he) _ (h.push _ _)
  rw [Builtin.forEach, Node.render, heffect, Helper.effect?]
  cases hall : itemFrames [] (.list (xs.map fun x => .ofPairs (pairs x))) with
  | nil =>
    rw [hall] at hjoined
    exact (renderAll_nil s).trans hjoined
  | cons f fs =>
    rw [hall] at hjoined
    exact hjoined

end Builtin

end Template

namespace Artifact

/-- A description with what stands around it, unless there is none. -/
def framed (before after : String) : Option String → List Char
  | none => []
  | some t => if t = "" then [] else before.toList ++ escapeBlock t.toList ++ after.toList

/-- A line of a definition under its description. -/
def row (description : Option String) (line : List Char) : List Char :=
  framed "  \"\"\"" "\"\"\"\n" description ++ ' ' :: ' ' :: (line ++ ['\n'])

/-- How a definition begins. -/
def opening (description : Option String) (word name : String) : List Char :=
  framed "\"\"\"\n" "\n\"\"\"\n" description ++ word.toList ++ ' ' :: name.toList

/-- Lines between braces. -/
def body (rows : List Char) : List Char := ' ' :: '{' :: '\n' :: (rows ++ ['}', '\n'])

def implementsClause (names : List String) : List Char :=
  if joinedNames " & " names = "" then []
  else " implements ".toList ++ (joinedNames " & " names).toList

/-- The text that the built-in template of its kind gives a definition. -/
def builtinText (s : Schema) : Definition → List Char
  | .object o =>
    opening o.description "type" o.name ++ implementsClause o.interfaces ++
      body (o.fields.values.flatMap fun f => row f.description (fieldLine f))
  | .interface i =>
    opening i.description "interface" i.name ++
      body (i.fields.values.flatMap fun f =>
        row f.description (signatureChars f.name f.args f.type))
  | .input i =>
    opening i.description "input" i.name ++
      body (i.fields.values.flatMap fun f => row f.description (inputLine s f))
  | .union u =>
    opening u.description "union" u.name ++ " = ".toList ++ (joinedNames " | " u.members).toList ++
      ['\n']
  | .enum e =>
    opening e.description "enum" e.name ++
      body (e.values.flatMap fun v => row v.description v.name.toList)
  | .scalar t => opening t.description "scalar" t.name ++ ['\n']

open Template Template.Builtin

theorem escapeBlock_eq_nil_iff (s : List Char) : escapeBlock s = [] ↔ s = [] := by
  fun_cases escapeBlock s <;> simp

theorem isTruthy_describe (t : String) : isTruthy (describe (some t)) = decide (t ≠ "") := by
  have hblank : blockString t = "" ↔ t = "" := by
    rw [blockString, ← String.toList_inj, String.toList_ofList, String.toList_empty,
      escapeBlock_eq_nil_iff, ← String.toList_eq_nil_iff]
  exact decide_eq_decide.mpr (not_congr hblank)

theorem shown_describe (t : String) : shown (describe (some t)) = escapeBlock t.toList := by
  have hshown : shown (describe (some t)) = (blockString t).toList := rfl
  rw [hshown, blockString, String.toList_ofList]

theorem framed_eq (before after : String) (description : Option String) :
    (if isTruthy (describe description) then
      before.toList ++ (shown (describe description) ++ (after.toList ++ [])) else []) =
        framed before after description := by
  cases description with
  | none => rfl
  | some t =>
    rw [isTruthy_describe, shown_describe, framed]
    by_cases ht : t = ""
    · simp [ht]
    · simp [ht]

variable {s : Scope} {d : Dict Value} {description : Option String}

theorem render_blockDescription (h : Inside s d)
    (hd : d.get? "description" = some (describe description)) :
    blockDescription.render s =
      some (String.ofList (framed "\"\"\"\n" "\n\"\"\"\n" description)) := by
  have hbody := renderAll_cons (render_text (s := s) "\"\"\"\n")
    (renderAll_cons (Inside.print h "description" rfl)
      (renderAll_cons (render_text "\n\"\"\"\n") (renderAll_nil s)))
  rw [blockDescription, Inside.whenGiven h hbody, hd, ← framed_eq]
  rfl

theorem render_lineDescription (h : Inside s d)
    (hd : d.get? "description" = some (describe description)) :
    lineDescription.render s =
      some (String.ofList (framed "  \"\"\"" "\"\"\"\n" description)) := by
  have hbody := renderAll_cons (render_text (s := s) "  \"\"\"")
    (renderAll_cons (Inside.print h "description" rfl)
      (renderAll_cons (render_text "\"\"\"\n") (renderAll_nil s)))
  rw [lineDescription, Inside.whenGiven h hbody, hd, ← framed_eq]
  rfl

theorem render_lines {α : Type} (h : Inside s d) {items text : String} {xs : List α}
    {pairs : α → List (String × Value)} {description : α → Option String} {line : α → List Char}
    (hget : d.get? items = some (.list (xs.map fun x => .ofPairs (pairs x))))
    (htext : Helper.ofName? text = none)
    (hdescription : ∀ x, (Dict.ofList (pairs x)).get? "description" =
      some (describe (description x)))
    (hline : ∀ x, (Dict.ofList (pairs x)).get? text = some (.string (String.ofList (line x)))) :
    (lines items text).render s =
      some (String.ofList (xs.flatMap fun x => row (description x) (line x))) := by
  refine Inside.forEach h hget fun x _ s' hs' => ?_
  have hrender := renderAll_cons (render_lineDescription hs' (hdescription x))
    (renderAll_cons (render_text (s := s') "  ") (renderAll_cons (Inside.print hs' text htext)
      (renderAll_cons (render_text "\n") (renderAll_nil s'))))
  rw [hrender, hline]
  have hshown : shown (.ofOption (some (.string (String.ofList (line x))))) = line x :=
    String.toList_ofList
  have hindent : "  ".toList = [' ', ' '] := rfl
  have hend : "\n".toList = ['\n'] := rfl
  rw [hshown, hindent, hend, row, List.append_nil]
  rfl

theorem get?_lineScope (description : Option String) (line : List Char) :
    (Dict.ofList [("description", describe description), ("line", .string (String.ofList line))]).get?
        "description" = some (describe description) ∧
      (Dict.ofList [("description", describe description), ("line", .string (String.ofList line))]).get?
        "line" = some (.string (String.ofList line)) := by
  simp [get?_pair]

theorem get?_headEntries (name : String) (description : Option String)
    (more : List (String × Value))
    (hmore : ∀ key ∈ ["name", "description"], (Dict.ofList more).get? key = none) :
    (Dict.ofList (headEntries name description ++ more)).get? "name" = some (.string name) ∧
      (Dict.ofList (headEntries name description ++ more)).get? "description" =
        some (describe description) := by
  rw [Dict.get?_append, Dict.get?_append, hmore _ (by simp), hmore _ (by simp), headEntries]
  simp [get?_pair]

theorem renderAll_opening (h : Inside s d) (text word : String) {name : String}
    (htext : text.toList = word.toList ++ [' ']) (hname : d.get? "name" = some (.string name))
    (hd : d.get? "description" = some (describe description)) {ns : List Node} {u : List Char}
    (hns : renderAll s ns = some (String.ofList u)) :
    renderAll s (blockDescription :: .text text :: print "name" :: ns) =
      some (String.ofList (opening description word name ++ u)) := by
  have hshown : shown (.ofOption (some (.string name))) = name.toList := rfl
  have hrender := renderAll_cons (render_blockDescription h hd)
    (renderAll_cons (render_text (s := s) text) (renderAll_cons (Inside.print h "name" rfl) hns))
  rw [hrender, hname, hshown, htext, opening]
  simp

theorem renderAll_body (h : Inside s d) {α : Type} {items : String} (text : String) {xs : List α}
    {pairs : α → List (String × Value)} {description : α → Option String} {line : α → List Char}
    (hget : d.get? items = some (.list (xs.map fun x => .ofPairs (pairs x))))
    (htext : Helper.ofName? text = none)
    (hdescription : ∀ x, (Dict.ofList (pairs x)).get? "description" =
      some (describe (description x)))
    (hline : ∀ x, (Dict.ofList (pairs x)).get? text = some (.string (String.ofList (line x)))) :
    renderAll s [.text " \x7b\n", lines items text, .text "\x7d\n"] =
      some (String.ofList (body (xs.flatMap fun x => row (description x) (line x)))) := by
  have hrender := renderAll_cons (render_text (s := s) " \x7b\n")
    (renderAll_cons (render_lines h hget htext hdescription hline)
      (renderAll_cons (render_text "\x7d\n") (renderAll_nil s)))
  rw [hrender]
  simp [body]

theorem render_implements (h : Inside s d) {names : List String}
    (hget : d.get? "implements" =
      some (if names.isEmpty then .null else .string (joinedNames " & " names))) :
    (whenGiven "implements" [.text " implements ", print "implements"]).render s =
      some (String.ofList (implementsClause names)) := by
  have hbody := renderAll_cons (render_text (s := s) " implements ")
    (renderAll_cons (Inside.print h "implements" rfl) (renderAll_nil s))
  have hshown (t : String) : shown (.ofOption (some (.string t))) = t.toList := rfl
  have htruthy (t : String) : isTruthy (.ofOption (some (.string t))) = decide (t ≠ "") := rfl
  rw [Inside.whenGiven h hbody, hget, implementsClause]
  by_cases hjoined : joinedNames " & " names = ""
  · cases names with
    | nil => simp [hjoined, isTruthy, Value.ofOption]
    | cons name names => simp [hjoined, htruthy]
  · cases names with
    | nil => exact absurd rfl hjoined
    | cons name names => simp [hjoined, htruthy, hshown]

theorem renderAll_listed {α : Type} {name : String} {description : Option String}
    {text word items line : String} {xs : List α} {pairs : α → List (String × Value)}
    {describes : α → Option String} {lineOf : α → List Char} (htext : text.toList = word.toList ++ [' '])
    (hitems : items ≠ "name" ∧ items ≠ "description") (hline : Helper.ofName? line = none)
    (hdescribes : ∀ x, (Dict.ofList (pairs x)).get? "description" = some (describe (describes x)))
    (hlineOf : ∀ x, (Dict.ofList (pairs x)).get? line = some (.string (String.ofList (lineOf x)))) :
    Template.render
      [blockDescription, .text text, print "name", .text " \x7b\n", lines items line, .text "\x7d\n"]
      (.ofPairs (headEntries name description ++ [(items, .list (xs.map fun x => .ofPairs (pairs x)))])) =
      some (String.ofList (opening description word name ++
        body (xs.flatMap fun x => row (describes x) (lineOf x)))) := by
  have hmore : ∀ key ∈ ["name", "description"],
      (Dict.ofList [(items, Value.list (xs.map fun x => .ofPairs (pairs x)))]).get? key = none := by
    intro key hkey
    have hne : key ≠ items := by
      rintro rfl
      simp [hitems] at hkey
    simp [get?_single, hne]
  obtain ⟨hname, hdescription⟩ := get?_headEntries name description _ hmore
  have hlist : (Dict.ofList (headEntries name description ++
      [(items, Value.list (xs.map fun x => .ofPairs (pairs x)))])).get? items =
        some (.list (xs.map fun x => .ofPairs (pairs x))) := by
    simp [Dict.get?_append, get?_single]
  exact renderAll_opening (inside_ofTop _) text word htext hname hdescription
    (renderAll_body (inside_ofTop _) line hlist hline hdescribes hlineOf)

/-- The built-in template of its kind renders every definition. -/
theorem render_builtin (s : Schema) (d : Definition) :
    Template.render (ofKind d.kind) (scope s d) = some (String.ofList (builtinText s d)) := by
  cases d with
  | object o =>
    let fields := Value.list (o.fields.values.map fun f => lineScope f.description (fieldLine f))
    let implements := if o.interfaces.isEmpty then Value.null else
      .string (joinedNames " & " o.interfaces)
    have hmore : ∀ key ∈ ["name", "description"],
        (Dict.ofList [("implements", implements), ("fields", fields)]).get? key = none := by
      simp [get?_pair]
    obtain ⟨hname, hdescription⟩ := get?_headEntries o.name o.description _ hmore
    have himplements : (Dict.ofList (headEntries o.name o.description ++
        [("implements", implements), ("fields", fields)])).get? "implements" = some implements := by
      simp [Dict.get?_append, get?_pair]
    have hfields : (Dict.ofList (headEntries o.name o.description ++
        [("implements", implements), ("fields", fields)])).get? "fields" = some fields := by
      simp [Dict.get?_append, get?_pair]
    have hin := inside_ofTop (Dict.ofList (headEntries o.name o.description ++
      [("implements", implements), ("fields", fields)]))
    have hbody := renderAll_body hin "line" hfields rfl
      (fun f => (get?_lineScope f.description _).1)
      fun f => (get?_lineScope f.description (fieldLine f)).2
    have hrender := renderAll_opening hin "type " "type" rfl hname hdescription
      (renderAll_cons (render_implements hin himplements) hbody)
    rw [builtinText, List.append_assoc]
    exact hrender
  | interface i =>
    exact renderAll_listed rfl (by decide) rfl (fun f => (get?_lineScope f.description _).1)
      fun f => (get?_lineScope f.description (signatureChars f.name f.args f.type)).2
  | input i =>
    exact renderAll_listed rfl (by decide) rfl (fun f => (get?_lineScope f.description _).1)
      fun f => (get?_lineScope f.description (inputLine s f)).2
  | union u =>
    obtain ⟨hname, hdescription⟩ := get?_headEntries u.name u.description
      [("members", .string (joinedNames " | " u.members))] (by simp [get?_single])
    have hmembers : (Dict.ofList (headEntries u.name u.description ++
        [("members", Value.string (joinedNames " | " u.members))])).get? "members" =
          some (.string (joinedNames " | " u.members)) := by
      simp [Dict.get?_append, get?_single]
    have hin := inside_ofTop (Dict.ofList (headEntries u.name u.description ++
      [("members", Value.string (joinedNames " | " u.members))]))
    have hshown : shown (.ofOption (some (.string (joinedNames " | " u.members)))) =
        (joinedNames " | " u.members).toList := rfl
    have hend := renderAll_cons (render_text " = ") (renderAll_cons (Inside.print hin "members" rfl)
      (renderAll_cons (render_text "\n") (renderAll_nil _)))
    rw [hmembers, hshown, List.append_nil] at hend
    have hrender := renderAll_opening hin "union " "union" rfl hname hdescription hend
    rw [builtinText, List.append_assoc, List.append_assoc]
    exact hrender
  | enum e =>
    have hvalue (v : EnumValue) := get?_headEntries v.name v.description [] fun _ _ => rfl
    simp only [List.append_nil] at hvalue
    have hname (v : EnumValue) : (Dict.ofList (headEntries v.name v.description)).get? "name" =
        some (.string (String.ofList v.name.toList)) := by
      rw [String.ofList_toList, (hvalue v).1]
    exact renderAll_listed rfl (by decide) rfl (fun v => (hvalue v).2) hname
  | scalar t =>
    obtain ⟨hname, hdescription⟩ := get?_headEntries t.name t.description [] fun _ _ => rfl
    rw [List.append_nil] at hname hdescription
    have hend := renderAll_cons (render_text "\n") (renderAll_nil
      (.ofTop (.ofPairs (headEntries t.name t.description))))
    exact renderAll_opening (inside_ofTop _) "scalar " "scalar" rfl hname hdescription hend

theorem encoder_congr {l m : TemplateLibrary} {word : String}
    (h : l.templates.get? word = m.templates.get? word) (scope : Value) :
    l.encoder word scope = m.encoder word scope := by
  rw [TemplateLibrary.encoder, TemplateLibrary.encoder, h]

theorem encoder_builtin (s : Schema) (d : Definition) :
    TemplateLibrary.builtin.encoder d.kind.word (scope s d) =
      .ok (String.ofList (builtinText s d)) := by
  have htemplate : TemplateLibrary.builtin.templates.get? d.kind.word = some (ofKind d.kind) := by
    cases d.kind <;> rfl
  rw [TemplateLibrary.encoder, htemplate]
  dsimp only
  rw [render_builtin]

end Artifact

end ClassSchema
