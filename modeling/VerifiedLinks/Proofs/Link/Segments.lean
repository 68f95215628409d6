import VerifiedLinks.Api
import VerifiedLinks.Proofs.Link.Prefixes
import VerifiedLinks.Proofs.Route.Preorder
import VerifiedLinks.Proofs.Route.WellFormed

/-!
# Segments of links

The path of a link is made of the literal segments of its target, each behind a slash.  Nobody
checks the target, so a segment of it might be empty or hold a slash, and the path would be
read as other segments than those.  It is the API that rules this out.  A literal of the target
meets the same literal in the API, and the literals of an API are checked.

So a target that has a link is well formed (`Api.exists_path_of_link`), and splitting the path
at its slashes gives the segments of the target back (`Api.segments_of_link`).  Two links are
the same exactly if the segments of their targets are, even if they lead into different APIs.

The main statement is `Api.link_spells_segments`.
-/

namespace VerifiedLinks

/-! ## Splitting -/

/-- The pieces of a text between the places where a character stands. -/
def Text.pieces (c : Char) (s : String) : List String :=
  (s.split c).toList.map (·.copy)

/-- Pieces that are put together are found again. -/
theorem Text.pieces_intercalate {c : Char} {ss : List String} (hne : ss ≠ [])
    (h : ∀ s ∈ ss, c ∉ s.toList) : pieces c ((String.singleton c).intercalate ss) = ss := by
  rw [pieces, String.toList_split_intercalate h, if_neg hne]

namespace Route

/-! ## Literal segments -/

/-- The literal segments of a route, from the root down and from left to right. -/
def literals : Route → List String
  | alt left right => left.literals ++ right.literals
  | step (.segment literal) rest => literal :: rest.literals
  | step _ rest => rest.literals
  | verb _ => []

@[simp] theorem literals_path (segments : List String) (v : Verb) :
    (path segments v).literals = segments := by
  induction segments with
  | nil => rfl
  | cons s segments ih => rw [path_cons, literals, ih]

theorem captureFree_path (segments : List String) (v : Verb) : (path segments v).CaptureFree := by
  induction segments with
  | nil => exact trivial
  | cons s segments ih => exact ih

/-! ## Paths -/

variable {segments : List String}

/-- The slash in front of a segment is also the one behind the segment before. -/
theorem join_slashes_cons (s : String) (segments : List String) :
    String.join ((s :: segments).map ("/" ++ ·)) = "/" ++ "/".intercalate (s :: segments) := by
  induction segments generalizing s with
  | nil => simp
  | cons s' segments ih =>
      rw [List.map_cons, String.join_cons, ih, String.intercalate_cons_cons, String.append_assoc,
        String.append_assoc]

/-- Behind its first slash a path is split into the segments that it was made of. -/
theorem exists_pieces_eq (v : Verb) (hne : segments ≠ []) (h : ∀ s ∈ segments, '/' ∉ s.toList) :
    ∃ text, (path segments v).literalPath = "/" ++ text ∧ Text.pieces '/' text = segments := by
  cases segments with
  | nil => exact absurd rfl hne
  | cons s segments =>
      refine ⟨"/".intercalate (s :: segments), ?_, ?_⟩
      · rw [literalPath_path, join_slashes_cons]
      · show Text.pieces '/' ((String.singleton '/').intercalate (s :: segments)) = s :: segments
        exact Text.pieces_intercalate hne h

/-- No path ends with a slash, since no segment does. -/
theorem getLast?_literalPath_ne_slash (v : Verb) (h : ∀ s ∈ segments, s ≠ "" ∧ '/' ∉ s.toList) :
    (path segments v).literalPath.toList.getLast? ≠ some '/' := by
  induction segments with
  | nil => simp [literalPath]
  | cons s segments ih =>
      obtain ⟨⟨hempty, hslash⟩, hsegments⟩ := List.forall_mem_cons.mp h
      intro hlast
      simp only [path_cons, literalPath, String.toList_append, List.getLast?_append,
        Option.or_eq_some_iff] at hlast
      -- The last character is that of the rest, or else that of the segment, which has one.
      rcases hlast with hrest | ⟨_, hs | ⟨hnone, _⟩⟩
      · exact ih hsegments hrest
      · exact hslash (List.mem_of_getLast? hs)
      · rw [List.getLast?_eq_none_iff, String.toList_eq_nil_iff] at hnone
        exact hempty hnone

end Route

/-! ## Links of an API -/

/-- The segments that a link shows: the pieces of its path behind the first slash. -/
def Link.segments (l : Link) : List String :=
  if l.path = "" then [] else Text.pieces '/' (String.ofList l.path.toList.tail)

namespace Api

/-- The target of a link is a path of segments, each of them neither empty nor with a slash in
it, and a verb that keeps its rule. -/
theorem exists_path_of_link {api : Api} {t : Route} {l : Link} (h : api.link t = .ok l) :
    ∃ segments v, t = .path segments v ∧ l.path = (Route.path segments v).literalPath ∧
      t.WellFormed ∧ ∀ s ∈ segments, s ≠ "" ∧ '/' ∉ s.toList := by
  obtain ⟨hcontains, ht, rfl⟩ := Route.link_eq_ok_iff.mp h
  obtain ⟨segments, v, rfl⟩ := Route.firstIneligible?_eq_none_iff.mp ht
  -- The target is not checked, so its rules come from the nodes of the API that it met.
  have hoffers : Route.Offers api.root (.path segments v) := .of_contains hcontains
  have hwell := hoffers.wellFormed api.wellFormed (Route.captureFree_path segments v)
  exact ⟨segments, v, rfl, rfl, hwell, (Route.wellFormed_path_iff.mp hwell).1⟩

/-- Without segments the path of a link is empty. -/
theorem path_eq_empty_of_link_verb {api : Api} {v : Verb} {l : Link}
    (h : api.link (.verb v) = .ok l) : l.path = "" := by
  obtain ⟨_, _, rfl⟩ := Route.link_eq_ok_iff.mp h
  rfl

/-- The path of a target that is more than a verb begins with a slash, does not end with one,
and in between are the segments of the target. -/
theorem exists_text_of_link {api : Api} {t : Route} {l : Link} (h : api.link t = .ok l)
    (ht : ∀ v, t ≠ .verb v) :
    ∃ text, l.path = "/" ++ text ∧ l.path.toList.getLast? ≠ some '/' ∧
      "" ∉ Text.pieces '/' text ∧ Text.pieces '/' text = t.literals := by
  obtain ⟨segments, v, rfl, hpath, _, hsegments⟩ := exists_path_of_link h
  have hne : segments ≠ [] := by
    rintro rfl
    exact ht v rfl
  obtain ⟨text, htext, hpieces⟩ := Route.exists_pieces_eq v hne fun s hs => (hsegments s hs).2
  have hlast := Route.getLast?_literalPath_ne_slash v hsegments
  rw [hpath, Route.literals_path]
  refine ⟨text, htext, hlast, fun hmem => ?_, hpieces⟩
  rw [hpieces] at hmem
  exact (hsegments "" hmem).1 rfl

/-- A link shows the literal segments of its target and nothing else. -/
theorem segments_of_link {api : Api} {t : Route} {l : Link} (h : api.link t = .ok l) :
    l.segments = t.literals := by
  by_cases ht : ∃ v, t = .verb v
  · obtain ⟨v, rfl⟩ := ht
    rw [Link.segments, if_pos (path_eq_empty_of_link_verb h), Route.literals]
  · obtain ⟨text, hpath, _, _, hpieces⟩ := exists_text_of_link h (not_exists.mp ht)
    rw [Link.segments, hpath]
    simpa using hpieces

/-- Targets with the same literal segments have the same link, if they have one. -/
theorem link_eq_of_literals_eq {api api' : Api} {t t' : Route} {l l' : Link}
    (h : api.link t = .ok l) (h' : api'.link t' = .ok l') (heq : t.literals = t'.literals) :
    l = l' := by
  obtain ⟨segments, v, rfl, hpath, _⟩ := exists_path_of_link h
  obtain ⟨segments', v', rfl, hpath', _⟩ := exists_path_of_link h'
  rw [Route.literals_path, Route.literals_path] at heq
  rw [Link.mk.injEq, hpath, hpath', heq, Route.literalPath_path, Route.literalPath_path]

/-- A target that has a link is well formed, whatever the target.  Its path is empty if the
target is a verb, and otherwise the segments of the target can be split off it.  Links of any
two APIs are the same exactly if their targets have the same segments. -/
theorem link_spells_segments :
    (∀ (api : Api) (t : Route) (l : Link), api.link t = .ok l →
      t.WellFormed ∧
      (∀ v, t = .verb v → l.path = "") ∧
      ((∀ v, t ≠ .verb v) → ∃ text, l.path = "/" ++ text ∧ l.path.toList.getLast? ≠ some '/' ∧
        "" ∉ Text.pieces '/' text ∧ Text.pieces '/' text = t.literals)) ∧
    ∀ (api api' : Api) (t t' : Route) (l l' : Link),
      api.link t = .ok l → api'.link t' = .ok l' → (l = l' ↔ t.literals = t'.literals) := by
  constructor
  · intro api t l h
    obtain ⟨_, _, _, _, hwell, _⟩ := exists_path_of_link h
    refine ⟨hwell, ?_, exists_text_of_link h⟩
    rintro v rfl
    exact path_eq_empty_of_link_verb h
  · intro api api' t t' l l' h h'
    constructor
    · intro heq
      rw [← segments_of_link h, ← segments_of_link h', heq]
    · exact link_eq_of_literals_eq h h'

/-- The API of profiles. -/
def profiles : Api := ⟨Route.profiles, by decide⟩

/-- An API in which a user can be deleted. -/
def deletions : Api := ⟨.path ["users", "me"] .delete, by decide⟩

/-- A target that leaves out what the API asks for besides the path, and another one with the
same segments. -/
theorem link_spells_segments_profiles :
    let me := Route.path ["users", "me"] { method := .get, response := some "User" }
    profiles.link me = .ok ⟨"/users/me"⟩ ∧ me.WellFormed ∧
      (∃ text, "/users/me" = "/" ++ text ∧ Text.pieces '/' text = ["users", "me"]) ∧
      profiles.link (.verb .delete) = .ok ⟨""⟩ ∧
      ∀ l, deletions.link (.path ["users", "me"] .delete) = .ok l → l = ⟨"/users/me"⟩ := by
  intro me
  obtain ⟨hspells, hsame⟩ := link_spells_segments
  have hme : profiles.link me = .ok ⟨"/users/me"⟩ := rfl
  obtain ⟨hwell, _, htext⟩ := hspells profiles me _ hme
  obtain ⟨text, hpath, _, _, hpieces⟩ := htext nofun
  refine ⟨hme, hwell, ⟨text, hpath, hpieces⟩, rfl, fun l hl => ?_⟩
  exact ((hsame profiles deletions me _ _ l hme hl).mpr rfl).symm

end Api

end VerifiedLinks
