import Mathlib
import AnnotationStore.Text.Path
/-!
# Clean names and joined paths

Cleaning keeps plain parts (not empty, not `.` or `..`, without a slash) as they are, so a
name that cleaning leaves alone, that is relative and does not start with `..`, is its plain
parts joined by slashes (`Name.eq_intercalate`). Joining a root that cleaning leaves alone
with such a name puts the name right after the root and one slash (`Root.join_name`); joining
it with nothing gives the root back, and with a name and a trailing slash drops the slash.
-/

namespace AnnotationStore.Path

/-! ## Parts -/

/-- A plain part of a path: not empty, not `.` or `..`, and without a slash. -/
structure Segment (s : String) : Prop where
  ne_empty : s ≠ ""
  ne_dot : s ≠ "."
  ne_dotDot : s ≠ ".."
  no_slash : '/' ∉ s.toList

/-- The parts of a path between its slashes. -/
def parts (p : String) : List String := (p.toList.splitOn '/').map String.ofList

theorem not_mem_of_mem_splitOn {a : Char} : ∀ {l x : List Char}, x ∈ l.splitOn a → a ∉ x
  | [], x, hx => by simp_all [List.splitOn_nil]
  | c :: l, x, hx => by
    rw [List.splitOn_cons_eq_if_modifyHead] at hx
    split at hx
    · rcases List.mem_cons.mp hx with rfl | hx
      · simp
      · exact not_mem_of_mem_splitOn hx
    · -- the first part grows by a character that is not the separator
      rename_i hc
      obtain ⟨y, ys, hys⟩ := List.exists_cons_of_ne_nil (List.splitOn_ne_nil a l)
      rw [hys, List.modifyHead_cons] at hx
      rcases List.mem_cons.mp hx with rfl | hx
      · have hy : a ∉ y := not_mem_of_mem_splitOn (hys ▸ List.mem_cons_self)
        simp only [List.mem_cons, not_or]
        exact ⟨fun h => hc (by simp [h]), hy⟩
      · exact not_mem_of_mem_splitOn (hys ▸ List.mem_cons_of_mem y hx)

theorem no_slash_of_mem_parts {p x : String} (hx : x ∈ parts p) : '/' ∉ x.toList := by
  obtain ⟨y, hy, rfl⟩ := List.mem_map.mp hx
  simpa using not_mem_of_mem_splitOn hy

theorem parts_append_slash (a b : String) : parts (a ++ "/" ++ b) = parts a ++ parts b := by
  simp only [parts, String.toList_append]
  rw [show ("/" : String).toList = ['/'] from rfl, List.append_assoc, List.singleton_append,
    List.splitOn_append_cons_self, List.map_append]

theorem parts_empty : parts "" = [""] := rfl

theorem parts_intercalate {cs : List String} (hne : cs ≠ []) (h : ∀ c ∈ cs, '/' ∉ c.toList) :
    parts ("/".intercalate cs) = cs := by
  simp only [parts, String.toList_intercalate]
  rw [show ("/" : String).toList = ['/'] from rfl, List.splitOn_intercalate]
  · simp
  · simpa using h
  · simpa using hne

theorem startsWith_iff_prefix {s pat : String} : s.startsWith pat = true ↔ pat.toList <+: s.toList :=
  String.startsWith_string_iff

theorem intercalate_ne_empty {cs : List String} (hne : cs ≠ []) (h : ∀ c ∈ cs, c ≠ "") :
    "/".intercalate cs ≠ "" := by
  obtain ⟨c, t, rfl⟩ := List.exists_cons_of_ne_nil hne
  intro hempty
  have hlist := congrArg String.toList hempty
  simp only [String.toList_intercalate, List.map_cons, String.toList_empty] at hlist
  cases t with
  | nil => exact h c List.mem_cons_self (by simpa using hlist)
  | cons c' t =>
    simp only [List.map_cons, List.intercalate_cons_cons, List.append_eq_nil_iff] at hlist
    exact h c List.mem_cons_self (by simpa using hlist.1)

/-! ## Cleaning -/

def cleanStep (rooted : Bool) (acc : List String) (part : String) : List String :=
  if part.isEmpty || part == "." then acc
  else if part == ".." then
    if acc.isEmpty || acc.getLast? == some ".." then (if rooted then acc else acc ++ [part])
    else acc.dropLast
  else acc ++ [part]

theorem cleanParts_eq (rooted : Bool) (ps : List String) : cleanParts rooted ps = ps.foldl (cleanStep rooted) [] :=
  rfl

theorem cleanStep_segment {part : String} (h : Segment part) (rooted : Bool) (acc : List String) :
    cleanStep rooted acc part = acc ++ [part] := by
  have hne : part.isEmpty = false := by simpa [String.isEmpty_iff] using h.ne_empty
  simp [cleanStep, hne, h.ne_dot, h.ne_dotDot]

theorem cleanStep_empty (rooted : Bool) (acc : List String) : cleanStep rooted acc "" = acc := by
  simp [cleanStep]

/-- Plain and empty parts: the plain ones are kept, in order. -/
theorem foldl_cleanStep_plain (rooted : Bool) :
    ∀ (ys acc : List String), (∀ y ∈ ys, Segment y ∨ y = "") →
      ys.foldl (cleanStep rooted) acc = acc ++ ys.filter (· ≠ "")
  | [], acc, _ => by simp
  | y :: ys, acc, h => by
    have hrest : ∀ z ∈ ys, Segment z ∨ z = "" := fun z hz => h z (List.mem_cons_of_mem y hz)
    rcases h y List.mem_cons_self with hy | rfl
    · rw [List.foldl_cons, cleanStep_segment hy, foldl_cleanStep_plain rooted ys _ hrest]
      simp [hy.ne_empty]
    · rw [List.foldl_cons, cleanStep_empty, foldl_cleanStep_plain rooted ys _ hrest]
      simp

theorem cleanParts_append (rooted : Bool) (xs ys : List String) :
    cleanParts rooted (xs ++ ys) = ys.foldl (cleanStep rooted) (cleanParts rooted xs) := by
  rw [cleanParts_eq, cleanParts_eq, List.foldl_append]

/-- What cleaning keeps: parts that are not empty, not `.` and without a slash, with `..`
only in a run at the front, and none at all in a rooted path. -/
structure Cleaned (rooted : Bool) (acc : List String) : Prop where
  plain : ∀ x ∈ acc, x ≠ "" ∧ x ≠ "." ∧ '/' ∉ x.toList
  climbs : ∃ k rest, acc = List.replicate k ".." ++ rest ∧ ".." ∉ rest ∧ (rooted = true → k = 0)

theorem cleaned_nil (rooted : Bool) : Cleaned rooted [] :=
  ⟨by simp, 0, [], rfl, by simp, fun _ => rfl⟩

namespace Cleaned

variable {rooted : Bool} {acc : List String}

theorem append_plain (h : Cleaned rooted acc) {part : String} (hne : part ≠ "") (hdot : part ≠ ".")
    (hdd : part ≠ "..") (hslash : '/' ∉ part.toList) : Cleaned rooted (acc ++ [part]) := by
  obtain ⟨k, rest, hacc, hrest, hk⟩ := h.climbs
  refine ⟨fun x hx => ?_, k, rest ++ [part], by simp [hacc], ?_, hk⟩
  · rcases List.mem_append.mp hx with hx | hx
    · exact h.plain x hx
    · rw [List.mem_singleton.mp hx]
      exact ⟨hne, hdot, hslash⟩
  · simp [hrest, Ne.symm hdd]

/-- A `..` with nothing before it to remove stays in a relative path. -/
theorem append_dotDot (h : Cleaned false acc) (hacc : (acc.isEmpty || acc.getLast? == some "..") = true) :
    Cleaned false (acc ++ [".."]) := by
  obtain ⟨k, rest, hcs, hrest, -⟩ := h.climbs
  -- the run of `..` is all there is
  have hnil : rest = [] := by
    rcases List.eq_nil_or_concat rest with hnil | ⟨rest', x, rfl⟩
    · exact hnil
    · have hx : x ≠ ".." := fun hx => hrest (by simp [hx])
      simp [hcs, hx] at hacc
  refine ⟨fun x hx => ?_, k + 1, [], by simp [hcs, hnil, List.replicate_succ'], by simp, by simp⟩
  rcases List.mem_append.mp hx with hx | hx
  · exact h.plain x hx
  · rw [List.mem_singleton.mp hx]
    exact ⟨by decide, by decide, by decide⟩

theorem dropLast (h : Cleaned rooted acc) (hacc : ¬(acc.isEmpty || acc.getLast? == some "..") = true) :
    Cleaned rooted acc.dropLast := by
  obtain ⟨k, rest, hcs, hrest, hk⟩ := h.climbs
  -- the part removed is not a `..`, so it lies past the run
  rcases List.eq_nil_or_concat rest with hnil | ⟨rest', x, hrx⟩
  · cases k with
    | zero => simp [hcs, hnil] at hacc
    | succ k => simp [hcs, hnil, List.replicate_succ'] at hacc
  rw [List.concat_eq_append] at hrx
  subst hrx
  refine ⟨fun y hy => h.plain y (List.mem_of_mem_dropLast hy), k, rest', ?_, ?_, hk⟩
  · rw [hcs, ← List.append_assoc, List.dropLast_concat]
  · exact fun hm => hrest (List.mem_append_left [x] hm)

theorem step (h : Cleaned rooted acc) {part : String} (hslash : '/' ∉ part.toList) :
    Cleaned rooted (cleanStep rooted acc part) := by
  unfold cleanStep
  by_cases hskip : (part.isEmpty || part == ".") = true
  · rw [if_pos hskip]
    exact h
  rw [if_neg hskip]
  by_cases hdd : part = ".."
  · subst hdd
    simp only [beq_self_eq_true, if_true]
    split
    · rename_i hacc
      cases rooted
      · exact h.append_dotDot hacc
      · exact h
    · rename_i hacc
      exact h.dropLast hacc
  · rw [if_neg (by simpa using hdd)]
    have hplain : part ≠ "" ∧ part ≠ "." := by simpa [String.isEmpty_iff, not_or] using hskip
    exact h.append_plain hplain.1 hplain.2 hdd hslash

/-- With no `..` run at the front, every part kept is plain. -/
theorem segments (h : Cleaned rooted acc) (hhead : rooted = true ∨ acc.head? ≠ some "..") :
    ∀ c ∈ acc, Segment c := by
  obtain ⟨k, rest, hcs, hrest, hk⟩ := h.climbs
  have hk0 : k = 0 := by
    rcases hhead with hr | hhd
    · exact hk hr
    · cases k with
      | zero => rfl
      | succ k => simp [hcs, List.replicate_succ] at hhd
  subst hk0
  intro c hc
  obtain ⟨hne, hdot, hslash⟩ := h.plain c hc
  have hmem : c ∈ rest := by simpa [hcs] using hc
  exact ⟨hne, hdot, fun hdd => hrest (hdd ▸ hmem), hslash⟩

end Cleaned

theorem cleaned_cleanParts (rooted : Bool) (ps : List String) (h : ∀ p ∈ ps, '/' ∉ p.toList) :
    Cleaned rooted (cleanParts rooted ps) := by
  rw [cleanParts_eq]
  exact List.foldlRecOn (motive := Cleaned rooted) ps (cleanStep rooted) (cleaned_nil rooted)
    fun _ hacc p hp => hacc.step (h p hp)

theorem cleaned_parts (rooted : Bool) (p : String) : Cleaned rooted (cleanParts rooted (parts p)) :=
  cleaned_cleanParts rooted (parts p) fun _ hx => no_slash_of_mem_parts hx

theorem clean_of_relative {p : String} (h : p.startsWith "/" = false) :
    clean p = if "/".intercalate (cleanParts false (parts p)) = "" then "." else
      "/".intercalate (cleanParts false (parts p)) := by
  simp only [clean, h, Bool.false_eq_true, if_false, String.isEmpty_iff]
  rfl

theorem clean_of_rooted {p : String} (h : p.startsWith "/" = true) :
    clean p = "/" ++ "/".intercalate (cleanParts true (parts p)) := by
  simp only [clean, h, if_true]
  rfl

/-! ## Names -/

/-- A name as blobs are named: one that cleaning leaves alone, not `.`, and starting neither
with a slash nor with `..`. -/
structure Name (n : String) : Prop where
  clean_eq : clean n = n
  ne_dot : n ≠ "."
  relative : n.startsWith "/" = false
  no_climb : n.startsWith ".." = false

theorem prefix_intercalate_cons (c : String) (t : List String) : c.toList <+: ("/".intercalate (c :: t)).toList := by
  cases t with
  | nil => simp
  | cons c' t =>
    rw [String.toList_intercalate, List.map_cons, List.map_cons, List.intercalate_cons_cons, List.append_assoc]
    exact List.prefix_append _ _

/-- A name is its plain parts joined by slashes. -/
theorem Name.eq_intercalate {n : String} (h : Name n) :
    ∃ cs, cs ≠ [] ∧ (∀ c ∈ cs, Segment c) ∧ n = "/".intercalate cs := by
  have hc := clean_of_relative h.relative
  rw [h.clean_eq] at hc
  split at hc
  · exact absurd hc h.ne_dot
  rename_i hne
  refine ⟨cleanParts false (parts n), fun hnil => hne (by rw [hnil]; rfl),
    (cleaned_parts false n).segments (.inr fun hhead => ?_), hc⟩
  -- a name whose first part is `..` starts with `..`
  obtain ⟨t, ht⟩ := List.head?_eq_some_iff.mp hhead
  have hclimb : n.startsWith ".." = true := by
    rw [ startsWith_iff_prefix]
    conv => rhs; rw [hc, ht]
    exact prefix_intercalate_cons ".." t
  rw [h.no_climb] at hclimb
  cases hclimb

theorem Name.ne_empty {n : String} (h : Name n) : n ≠ "" := by
  obtain ⟨cs, hne, hseg, rfl⟩ := h.eq_intercalate
  exact intercalate_ne_empty hne fun c hc => (hseg c hc).ne_empty

theorem Name.parts_eq {n : String} (h : Name n) : ∃ cs, cs ≠ [] ∧ (∀ c ∈ cs, Segment c) ∧ n = "/".intercalate cs ∧ parts n = cs := by
  obtain ⟨cs, hne, hseg, hn⟩ := h.eq_intercalate
  exact ⟨cs, hne, hseg, hn, hn ▸ parts_intercalate hne fun c hc => (hseg c hc).no_slash⟩

/-- A single plain part that does not start with `..` is a name. -/
theorem Segment.name {c : String} (h : Segment c) (hclimb : c.startsWith ".." = false) : Name c := by
  have hrel : c.startsWith "/" = false := by
    apply Bool.eq_false_iff.mpr
    rw [ne_eq, startsWith_iff_prefix, show ("/" : String).toList = ['/'] from rfl]
    exact fun hpre => h.no_slash (hpre.subset List.mem_cons_self)
  have hparts : parts c = [c] := by
    simpa using parts_intercalate (List.cons_ne_nil c []) (by simpa using h.no_slash)
  refine ⟨?_, h.ne_dot, hrel, hclimb⟩
  rw [clean_of_relative hrel, hparts, cleanParts_eq]
  simp [cleanStep_segment h, h.ne_empty]

theorem endsWith_iff_suffix {s pat : String} : s.endsWith pat = true ↔ pat.toList <:+ s.toList := by
  rw [String.endsWith_eq_endsWith_toSlice, String.Slice.endsWith_string_iff, String.copy_toSlice]

/-- A name never ends with a slash: its last part is plain. -/
theorem Name.endsWith_slash {n : String} (h : Name n) : n.endsWith "/" = false := by
  obtain ⟨cs, hne, hseg, rfl⟩ := h.eq_intercalate
  obtain ⟨cs', c, rfl⟩ := (List.eq_nil_or_concat cs).resolve_left hne
  rw [List.concat_eq_append] at hseg ⊢
  have hc := hseg c (List.mem_append_right _ List.mem_cons_self)
  -- the joined name ends with its last part
  have hlast : c.toList <:+ ("/".intercalate (cs' ++ [c])).toList := by
    by_cases hcs' : cs' = []
    · simp [hcs']
    · rw [String.intercalate_append_of_ne_nil hcs' (List.cons_ne_nil c [])]
      rw [String.toList_append, String.intercalate_singleton]
      exact List.suffix_append _ _
  have hcne : c.toList ≠ [] := by simpa using hc.ne_empty
  apply Bool.eq_false_iff.mpr
  rw [ne_eq, endsWith_iff_suffix, show ("/" : String).toList = ['/'] from rfl]
  intro hslash
  have hsuffix : ['/'] <:+ c.toList :=
    List.suffix_of_suffix_length_le hslash hlast (List.length_pos_of_ne_nil hcne)
  exact hc.no_slash (hsuffix.subset List.mem_cons_self)

/-! ## Roots and joined paths -/

/-- A root a store may be given: empty, or left alone by cleaning and not `.`. -/
def Root (r : String) : Prop := r = "" ∨ (clean r = r ∧ r ≠ ".")

/-- What a path under a root starts with: nothing under the empty root, the slash under `/`,
and the root and a slash under any other root. -/
def dirPrefix (r : String) : String := if r = "" then "" else if r = "/" then "/" else r ++ "/"

theorem startsWith_slash_append {r : String} (hne : r ≠ "") (x : String) :
    (r ++ x).startsWith "/" = r.startsWith "/" := by
  obtain ⟨c, t, hct⟩ := List.exists_cons_of_ne_nil (by simpa using hne : r.toList ≠ [])
  apply Bool.eq_iff_iff.mpr
  rw [ startsWith_iff_prefix, startsWith_iff_prefix, String.toList_append, hct,
    show ("/" : String).toList = ['/'] from rfl]
  simp

theorem parts_append_slash_end (q : String) : parts (q ++ "/") = parts q ++ [""] := by
  rw [show q ++ "/" = q ++ "/" ++ "" by simp, parts_append_slash, parts_empty]

/-- Joining a root that is not empty with a path whose parts are plain or empty gives the root
when no part is plain, and otherwise the root's directory prefix and the plain parts joined by
slashes. -/
theorem join_of_clean {r : String} (hclean : clean r = r) (hdot : r ≠ ".") (hne : r ≠ "") {p : String}
    (hp : ∀ y ∈ parts p, Segment y ∨ y = "") :
    join r p = if (parts p).filter (· ≠ "") = [] then r else
      dirPrefix r ++ "/".intercalate ((parts p).filter (· ≠ "")) := by
  have hj : join r p = clean (r ++ "/" ++ p) := by
    have : r.isEmpty = false := by simpa [String.isEmpty_iff] using hne
    simp [join, this]
  have hparts : ∀ ρ, cleanParts ρ (parts (r ++ "/" ++ p)) = cleanParts ρ (parts r) ++ (parts p).filter (· ≠ "") := by
    intro ρ
    rw [parts_append_slash, cleanParts_append, foldl_cleanStep_plain _ _ _ hp]
  have hstart : (r ++ "/" ++ p).startsWith "/" = r.startsWith "/" := by
    rw [String.append_assoc]
    exact startsWith_slash_append hne _
  rw [hj]
  generalize hY : (parts p).filter (· ≠ "") = Y at hparts ⊢
  cases hρ : r.startsWith "/"
  · -- a relative root is its cleaned parts joined
    have hr := clean_of_relative hρ
    rw [clean_of_relative (hstart.trans hρ), hparts]
    generalize cleanParts false (parts r) = R at hr ⊢
    rw [hclean] at hr
    split at hr
    · exact absurd hr hdot
    rename_i hR
    have hRne : R ≠ [] := fun h => hR (by rw [h]; rfl)
    have hslash : r ≠ "/" := fun h => by simp [h] at hρ
    by_cases hY0 : Y = []
    · rw [if_pos hY0, hY0, List.append_nil, if_neg hR]
      exact hr.symm
    have hlong : "/".intercalate R ++ "/" ++ "/".intercalate Y ≠ "" := by
      intro h
      have := congrArg String.length h
      simp [String.length_append] at this
    rw [if_neg hY0, String.intercalate_append_of_ne_nil hRne hY0, if_neg hlong, ← hr]
    simp [dirPrefix, hne, hslash]
  · -- a rooted root is a slash and its cleaned parts joined
    have hr := clean_of_rooted hρ
    have hplain : ∀ c ∈ cleanParts true (parts r), c ≠ "" := fun c hc => ((cleaned_parts true r).plain c hc).1
    rw [clean_of_rooted (hstart.trans hρ), hparts]
    generalize cleanParts true (parts r) = R at hr hplain ⊢
    rw [hclean] at hr
    by_cases hY0 : Y = []
    · rw [if_pos hY0, hY0, List.append_nil]
      exact hr.symm
    rw [if_neg hY0]
    by_cases hR : R = []
    · -- the root `/`
      have hroot : r = "/" := by rw [hr, hR]; rfl
      rw [hR, List.nil_append, hroot]
      simp [dirPrefix]
    · have hslash : r ≠ "/" := by
        intro h
        have := congrArg String.length (hr.symm.trans h)
        simp [String.length_append] at this
        exact intercalate_ne_empty hR hplain this
      rw [String.intercalate_append_of_ne_nil hR hY0]
      simp only [dirPrefix, hne, hslash, if_false]
      rw [hr]
      simp [String.append_assoc]

theorem Root.join_name {r n : String} (hr : Root r) (hn : Name n) : join r n = dirPrefix r ++ n := by
  obtain ⟨cs, hne, hseg, hcs, hparts⟩ := hn.parts_eq
  have hfilter : cs.filter (· ≠ "") = cs := List.filter_eq_self.mpr fun c hc => by simpa using (hseg c hc).ne_empty
  rcases hr with rfl | ⟨hclean, hdot⟩
  · have : n.isEmpty = false := by simpa [String.isEmpty_iff] using hn.ne_empty
    simp [join, this, hn.clean_eq, dirPrefix]
  · by_cases hr0 : r = ""
    · subst hr0
      have : n.isEmpty = false := by simpa [String.isEmpty_iff] using hn.ne_empty
      simp [join, this, hn.clean_eq, dirPrefix]
    rw [join_of_clean hclean hdot hr0 fun y hy => .inl (hseg y (hparts ▸ hy)), hparts, hfilter, if_neg hne, ← hcs]

theorem Root.join_empty {r : String} (hr : Root r) : join r "" = r := by
  rcases hr with rfl | ⟨hclean, hdot⟩
  · rfl
  · by_cases hr0 : r = ""
    · subst hr0
      rfl
    rw [join_of_clean hclean hdot hr0 (by simp [parts_empty])]
    simp [parts_empty]

theorem Root.join_dir {r q : String} (hr : Root r) (hq : Name q) : join r (q ++ "/") = dirPrefix r ++ q := by
  obtain ⟨cs, hne, hseg, hcs, hparts⟩ := hq.parts_eq
  have hfilter : (cs ++ [""]).filter (· ≠ "") = cs := by
    rw [List.filter_append, List.filter_eq_self.mpr fun c hc => by simpa using (hseg c hc).ne_empty]
    simp
  have hp : ∀ y ∈ parts (q ++ "/"), Segment y ∨ y = "" := by
    rw [parts_append_slash_end, hparts]
    intro y hy
    rcases List.mem_append.mp hy with hy | hy
    · exact .inl (hseg y hy)
    · exact .inr (List.mem_singleton.mp hy)
  by_cases hr0 : r = ""
  · -- under the empty root the path is cleaned on its own
    subst hr0
    have hrel : (q ++ "/").startsWith "/" = false := by
      rw [startsWith_slash_append hq.ne_empty]
      exact hq.relative
    have hclean : cleanParts false (parts (q ++ "/")) = cs := by
      rw [cleanParts_eq, foldl_cleanStep_plain _ _ _ hp, parts_append_slash_end, hparts, List.nil_append, hfilter]
    have hne' : (q ++ "/").isEmpty = false := by simp
    simp only [join, Bool.not_eq_true', hne', if_true]
    rw [clean_of_relative hrel, hclean, ← hcs, if_neg hq.ne_empty]
    simp [dirPrefix]
  rcases hr with h | ⟨hclean, hdot⟩
  · exact absurd h hr0
  rw [join_of_clean hclean hdot hr0 hp, parts_append_slash_end, hparts, hfilter, if_neg hne, ← hcs]

/-! ## Roots written with a slash -/

/-- A slash after a path that is not empty adds an empty part, which cleaning drops. -/
theorem clean_append_slash_slash {a : String} (hne : a ≠ "") (b : String) :
    clean (a ++ "/" ++ "/" ++ b) = clean (a ++ "/" ++ b) := by
  have hstart : (a ++ "/" ++ "/" ++ b).startsWith "/" = (a ++ "/" ++ b).startsWith "/" := by
    simp only [String.append_assoc, startsWith_slash_append hne]
  have hparts : ∀ ρ, cleanParts ρ (parts (a ++ "/" ++ "/" ++ b)) = cleanParts ρ (parts (a ++ "/" ++ b)) := by
    intro ρ
    rw [parts_append_slash, parts_append_slash_end, parts_append_slash, List.append_assoc,
      List.singleton_append, cleanParts_append, cleanParts_append, List.foldl_cons, cleanStep_empty]
  cases hρ : (a ++ "/" ++ b).startsWith "/"
  · rw [clean_of_relative (hstart.trans hρ), clean_of_relative hρ, hparts]
  · rw [clean_of_rooted (hstart.trans hρ), clean_of_rooted hρ, hparts]

/-- A slash after a root that is not empty changes no join. -/
theorem join_append_slash {c : String} (hne : c ≠ "") (p : String) : join (c ++ "/") p = join c p := by
  have hc : c.isEmpty = false := by simpa [String.isEmpty_iff] using hne
  have hcs : (c ++ "/").isEmpty = false := by simp
  simp only [join, hc, hcs, Bool.not_false, ↓reduceIte]
  exact clean_append_slash_slash hne p

/-- A root written for the directory `c`, a root that cleaning leaves alone: `c` itself, or
`c` and a slash when `c` is neither empty nor `/`. -/
def DirRoot (r c : String) : Prop := Root c ∧ (r = c ∨ (c ≠ "" ∧ c ≠ "/" ∧ r = c ++ "/"))

/-- Joining under a root joins under the directory it is written for. -/
theorem DirRoot.join_eq {r c : String} (h : DirRoot r c) (p : String) : join r p = join c p := by
  rcases h.2 with rfl | ⟨hne, -, rfl⟩
  · rfl
  · exact join_append_slash hne p

end AnnotationStore.Path
