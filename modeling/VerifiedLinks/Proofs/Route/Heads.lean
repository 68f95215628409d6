import VerifiedLinks.Proofs.ContentType.Tags
import VerifiedLinks.Proofs.Route.Nodes
import VerifiedLinks.Route.Display

/-!
# Heads of nodes

Without what lies below it, a step or a verb is shown as a word that says which node it is, and
behind it names, types and content types.  Only a literal has no word and begins with its quote
(`Node.shape_eq_of_head`).

With what follows it, the head of a node determines the node (`Node.head_append_inj`).  For that
the node has to be sound, as nothing but the method is shown of a `DELETE`, and the names of
types and responses have to be plain, as they are not quoted (`Node.Showable`).
-/

namespace VerifiedLinks

/-! ## Words -/

/-- The word at the front of a step of this kind. -/
def Kind.word : Kind → String
  | alt | segment | verb => ""
  | capture => "Capture"
  | body => "ReqBody"
  | param place repeated => place.combinator ++ (if repeated then "Params" else "Param")
  | flag place => place.combinator ++ "Flag"

namespace Node

/-- What a node is shown as. -/
def head : Node → String
  | alt => ":<|>"
  | step s => s.head
  | verb v => v.head

/-- What can be said of a node by its first word: the kind of a step, and the method of a
verb. -/
def shape : Node → Kind ⊕ Method
  | alt => .inl .alt
  | step s => .inl s.kind
  | verb v => .inr v.method

/-- The name of a type or of a response. -/
def type? : Node → Option String
  | alt => none
  | step s => s.type?
  | verb v => v.response

/-- The word at the front of a node of this shape. -/
def shapeWord : Kind ⊕ Method → String :=
  Sum.elim Kind.word Method.combinator

/-- The shapes of steps and verbs. -/
def shapes : List (Kind ⊕ Method) :=
  [.segment, .capture, .body, .param .query false, .param .query true, .flag .query,
    .param .matrix false, .param .matrix true, .flag .matrix].map .inl ++ Method.all.map .inr

theorem mem_shapes {n : Node} (hn : n ≠ alt) : n.shape ∈ shapes := by
  cases n with
  | alt => exact absurd rfl hn
  | step s =>
      rcases s with _ | _ | _ | ⟨_ | _, _ | _⟩ | ⟨_ | _⟩ <;>
        simp [shapes, shape, Step.kind, Modifier.kind]
  | verb v => rcases v with ⟨_ | _⟩ <;> simp [shapes, shape, Method.all]

/-- No two shapes have the same word. -/
theorem shapeWord_inj {k l : Kind ⊕ Method} (hk : k ∈ shapes) (hl : l ∈ shapes)
    (h : shapeWord k = shapeWord l) : k = l := by
  have hdistinct : ∀ k ∈ shapes, ∀ l ∈ shapes, shapeWord k = shapeWord l → k = l := by decide
  exact hdistinct k hk l hl h

/-- The words consist of letters. -/
theorem isAlpha_of_mem_shapeWord {k : Kind ⊕ Method} (hk : k ∈ shapes) :
    ∀ c ∈ (shapeWord k).toList, c.isAlpha = true := by
  have hall : shapes.all (fun k => (shapeWord k).toList.all Char.isAlpha) = true := by decide
  exact List.all_eq_true.mp (List.all_eq_true.mp hall k hk)

end Node

/-- A step is shown as its word and something that does not go on with the word. -/
theorem Step.exists_head_eq (s : Step) :
    ∃ details, s.head = s.kind.word ++ details ∧ Text.StopsAt Char.isAlpha details := by
  have hspace (t : String) : Text.StopsAt Char.isAlpha (" " ++ t) :=
    (Text.stopsAt_append rfl).mpr rfl
  cases s with
  | segment literal =>
      refine ⟨Text.quoted literal, String.empty_append.symm, ?_⟩
      intro c hc
      rw [Text.head?_quoted] at hc
      cases hc
      rfl
  | capture name type =>
      refine ⟨" " ++ (Text.quoted name ++ " " ++ type), ?_, hspace _⟩
      show "Capture" ++ " " ++ Text.quoted name ++ " " ++ type = "Capture" ++ _
      simp only [String.append_assoc]
  | modifier m =>
      cases m with
      | body cts type =>
          refine ⟨" " ++ (ContentType.tagList cts ++ " " ++ type), ?_, hspace _⟩
          show "ReqBody" ++ " " ++ ContentType.tagList cts ++ " " ++ type = "ReqBody" ++ _
          simp only [String.append_assoc]
      | param place repeated name type =>
          refine ⟨" " ++ (Text.quoted name ++ " " ++ type), ?_, hspace _⟩
          have hword : (if repeated then "Params " else "Param ") =
              (if repeated then "Params" else "Param") ++ " " := by
            cases repeated <;> rfl
          simp only [head, Modifier.head, kind, Modifier.kind, Kind.word, hword,
            String.append_assoc]
      | flag place name =>
          refine ⟨" " ++ Text.quoted name, ?_, hspace _⟩
          show place.combinator ++ ("Flag" ++ " ") ++ Text.quoted name =
            place.combinator ++ "Flag" ++ _
          simp only [String.append_assoc]

/-- A verb is shown as its word and something that does not go on with the word. -/
theorem Verb.exists_head_eq (v : Verb) :
    ∃ details, v.head = v.method.combinator ++ details ∧ Text.StopsAt Char.isAlpha details := by
  obtain ⟨method, cts, response⟩ := v
  cases method with
  | delete => exact ⟨"", String.append_empty.symm, Text.stopsAt_empty⟩
  | get | post | put =>
      refine ⟨" " ++ (ContentType.tagList cts ++ " " ++ response.getD "()"), ?_,
        (Text.stopsAt_append rfl).mpr rfl⟩
      simp only [head, String.append_assoc]

namespace Node

/-- The head of a node is the word of its shape and then something that does not begin with a
letter. -/
theorem exists_head_eq {n : Node} (hn : n ≠ alt) :
    ∃ details, n.head = shapeWord n.shape ++ details ∧ Text.StopsAt Char.isAlpha details := by
  cases n with
  | alt => exact absurd rfl hn
  | step s => exact s.exists_head_eq
  | verb v => exact v.exists_head_eq

/-- Steps and verbs do not begin with a parenthesis. -/
theorem exists_head?_eq {n : Node} (hn : n ≠ alt) :
    ∃ c, n.head.toList.head? = some c ∧ c ≠ '(' := by
  cases n with
  | alt => exact absurd rfl hn
  | step s =>
      rcases s with literal | _ | _ | ⟨_ | _⟩ | ⟨_ | _⟩
      · exact ⟨'"', Text.head?_quoted literal, by decide⟩
      all_goals simp [head, Step.head, Modifier.head, Place.combinator]
  | verb v => rcases v with ⟨_ | _⟩ <;> simp [head, Verb.head, Method.combinator]

/-- Nodes that are shown alike are of one shape. -/
theorem shape_eq_of_head {n m : Node} (hn : n ≠ alt) (hm : m ≠ alt) {x y : String}
    (hx : Text.StopsAt Text.continuesName x) (hy : Text.StopsAt Text.continuesName y)
    (h : n.head ++ x = m.head ++ y) : n.shape = m.shape := by
  obtain ⟨details, hhead, hstop⟩ := exists_head_eq hn
  obtain ⟨details', hhead', hstop'⟩ := exists_head_eq hm
  rw [hhead, hhead', String.append_assoc, String.append_assoc] at h
  have hbehind {x : String} (hx : Text.StopsAt Text.continuesName x) :
      Text.StopsAt Char.isAlpha x := hx.mono fun c => Text.not_isAlpha_of_not_continuesName
  have hword := Text.append_inj_of_all (isAlpha_of_mem_shapeWord (mem_shapes hn))
    (isAlpha_of_mem_shapeWord (mem_shapes hm)) (hstop.append (hbehind hx))
    (hstop'.append (hbehind hy)) h
  exact shapeWord_inj (mem_shapes hn) (mem_shapes hm) hword.1

/-- The node keeps its rule, and the name of its type or response is plain. -/
def Showable (n : Node) : Prop :=
  n.Sound ∧ ∀ type, n.type? = some type → Text.IsPlain type

end Node

/-- The steps are of one kind.  Parameters and flags stand in one place. -/
inductive Step.SameKind : (s t : Step) → Prop
  | segment (literal literal' : String) : SameKind (segment literal) (segment literal')
  | capture (name type name' type' : String) : SameKind (capture name type) (capture name' type')
  | body (cts : List ContentType) (type : String) (cts' : List ContentType) (type' : String) :
      SameKind (modifier (.body cts type)) (modifier (.body cts' type'))
  | param (place : Place) (repeated : Bool) (name type name' type' : String) :
      SameKind (modifier (.param place repeated name type))
        (modifier (.param place repeated name' type'))
  | flag (place : Place) (name name' : String) :
      SameKind (modifier (.flag place name)) (modifier (.flag place name'))

theorem Step.sameKind_of_kind_eq {s t : Step} (h : s.kind = t.kind) : SameKind s t := by
  rcases s with _ | _ | _ | _ | _ <;> rcases t with _ | _ | _ | _ | _ <;> cases h <;> constructor

section

variable {x y : String} (hx : Text.StopsAt Text.continuesName x)
  (hy : Text.StopsAt Text.continuesName y)

include hx hy

/-- A plain name is told apart from what follows it. -/
theorem Text.IsPlain.append_inj {s t : String} (hs : IsPlain s) (ht : IsPlain t)
    (h : s ++ x = t ++ y) : s = t ∧ x = y :=
  append_inj_of_all hs.continuesName ht.continuesName hx hy h

/-- A quoted name and a plain one, as they stand behind the word of a capture or a parameter. -/
theorem named_append_inj {name name' type type' : String} (ht : Text.IsPlain type)
    (ht' : Text.IsPlain type')
    (h : Text.quoted name ++ (" " ++ (type ++ x)) = Text.quoted name' ++ (" " ++ (type' ++ y))) :
    (name = name' ∧ type = type') ∧ x = y := by
  obtain ⟨hname, hrest⟩ := Text.quoted_append_inj h
  rw [String.append_right_inj] at hrest
  obtain ⟨htype, hxy⟩ := ht.append_inj hx hy ht' hrest
  exact ⟨⟨hname, htype⟩, hxy⟩

/-- Content types and a plain name, as they stand in a body and in a verb. -/
theorem typed_append_inj {cts cts' : List ContentType} {type type' : String}
    (ht : Text.IsPlain type) (ht' : Text.IsPlain type')
    (h : ContentType.tagList cts ++ (" " ++ (type ++ x)) =
      ContentType.tagList cts' ++ (" " ++ (type' ++ y))) :
    (cts = cts' ∧ type = type') ∧ x = y := by
  obtain ⟨hcts, hrest⟩ := ContentType.tagList_append_inj h
  rw [String.append_right_inj] at hrest
  obtain ⟨htype, hxy⟩ := ht.append_inj hx hy ht' hrest
  exact ⟨⟨hcts, htype⟩, hxy⟩

/-- Steps of one kind are told apart. -/
theorem Step.head_append_inj {s t : Step} (hkind : s.kind = t.kind)
    (hs : ∀ type, s.type? = some type → Text.IsPlain type)
    (ht : ∀ type, t.type? = some type → Text.IsPlain type) (h : s.head ++ x = t.head ++ y) :
    s = t ∧ x = y := by
  cases Step.sameKind_of_kind_eq hkind with
  | segment literal literal' =>
      obtain ⟨rfl, hxy⟩ := Text.quoted_append_inj h
      exact ⟨rfl, hxy⟩
  | capture name type name' type' =>
      simp only [head, String.append_assoc, String.append_right_inj] at h
      obtain ⟨⟨rfl, rfl⟩, hxy⟩ := named_append_inj hx hy (hs _ rfl) (ht _ rfl) h
      exact ⟨rfl, hxy⟩
  | body cts type cts' type' =>
      simp only [head, Modifier.head, String.append_assoc, String.append_right_inj] at h
      obtain ⟨⟨rfl, rfl⟩, hxy⟩ := typed_append_inj hx hy (hs _ rfl) (ht _ rfl) h
      exact ⟨rfl, hxy⟩
  | param place repeated name type name' type' =>
      simp only [head, Modifier.head, String.append_assoc, String.append_right_inj] at h
      obtain ⟨⟨rfl, rfl⟩, hxy⟩ := named_append_inj hx hy (hs _ rfl) (ht _ rfl) h
      exact ⟨rfl, hxy⟩
  | flag place name name' =>
      simp only [head, Modifier.head, String.append_assoc, String.append_right_inj] at h
      obtain ⟨rfl, hxy⟩ := Text.quoted_append_inj h
      exact ⟨rfl, hxy⟩

/-- Verbs of one method are told apart. -/
theorem Verb.head_append_inj {v w : Verb} (hmethod : v.method = w.method)
    (hv : (Node.verb v).Showable) (hw : (Node.verb w).Showable) (h : v.head ++ x = w.head ++ y) :
    v = w ∧ x = y := by
  obtain ⟨⟨hdelete, hother⟩, hplain⟩ := hv
  obtain ⟨⟨hdelete', hother'⟩, hplain'⟩ := hw
  obtain ⟨method, cts, response⟩ := v
  obtain ⟨method', cts', response'⟩ := w
  cases hmethod
  by_cases hm : method = .delete
  · obtain ⟨rfl, rfl⟩ := hdelete hm
    obtain ⟨rfl, rfl⟩ := hdelete' hm
    exact ⟨rfl, (String.append_right_inj _).mp h⟩
  · obtain ⟨type, rfl, -⟩ := hother hm
    obtain ⟨type', rfl, -⟩ := hother' hm
    have hshown (cts : List ContentType) (type : String) :
        Verb.head ⟨method, cts, some type⟩ =
          method.combinator ++ (" " ++ (ContentType.tagList cts ++ (" " ++ type))) := by
      cases method with
      | delete => exact absurd rfl hm
      | get | post | put => simp only [head, Option.getD_some, String.append_assoc]
    simp only [hshown, String.append_assoc, String.append_right_inj] at h
    obtain ⟨⟨rfl, rfl⟩, hxy⟩ := typed_append_inj hx hy (hplain _ rfl) (hplain' _ rfl) h
    exact ⟨rfl, hxy⟩

/-- Steps and verbs are told apart, from each other and from what follows them. -/
theorem Node.head_append_inj {n m : Node} (hn : n ≠ .alt) (hm : m ≠ .alt) (hns : n.Showable)
    (hms : m.Showable) (h : n.head ++ x = m.head ++ y) : n = m ∧ x = y := by
  have hshape : n.shape = m.shape := shape_eq_of_head hn hm hx hy h
  cases n with
  | alt => exact absurd rfl hn
  | step s =>
      cases m with
      | alt => exact absurd rfl hm
      | step t =>
          obtain ⟨rfl, hxy⟩ :=
            Step.head_append_inj hx hy (Sum.inl.inj hshape) hns.2 hms.2 h
          exact ⟨rfl, hxy⟩
      | verb w => cases hshape
  | verb v =>
      cases m with
      | alt => exact absurd rfl hm
      | step t => cases hshape
      | verb w =>
          obtain ⟨rfl, hxy⟩ := Verb.head_append_inj hx hy (Sum.inr.inj hshape) hns hms h
          exact ⟨rfl, hxy⟩

end

end VerifiedLinks
