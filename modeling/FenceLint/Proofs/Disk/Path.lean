import FenceLint.Disk.Path
import FenceLint.Proofs.Text.Bytes
import Mathlib.Data.List.TakeWhile

/-!
Paths by their parts. What stands on the two sides of a slash are the parts of a path, so that a
name below a directory is one part more. The components of a path are the parts that count for where
it leads by name, and paths are put in order by the bytes of their components, not of their text: a
slash is then less than every character of a name.
-/

set_option autoImplicit false

namespace FenceLint.Path

theorem parts_ne_nil (path : String) : parts path ≠ [] :=
  fun h ↦ Text.pieces_ne_nil path.toList (List.map_eq_nil_iff.mp h)

/-- A slash divides the parts of a path. -/
theorem parts_append_slash (front back : String) :
    parts (front ++ "/" ++ back) = parts front ++ parts back := by
  have hslash : "/".toList = ['/'] := rfl
  rw [parts, String.toList_append, String.toList_append, hslash, List.append_assoc,
    List.singleton_append, Text.pieces_append_cons, List.map_append, parts, parts]

/-- A slash at the end is followed by an empty part. -/
theorem parts_append_slash_end (front : String) : parts (front ++ "/") = parts front ++ [""] := by
  have h := parts_append_slash front ""
  rw [String.append_empty] at h
  exact h

/-- A text without a slash is one part. -/
theorem parts_of_not_mem {name : String} (h : '/' ∉ name.toList) : parts name = [name] := by
  rw [parts, Text.pieces_of_not_mem h, List.map_singleton, String.ofList_toList]

theorem slash_not_mem_of_mem_parts (path : String) : ∀ part ∈ parts path, '/' ∉ part.toList := by
  intro part hpart
  obtain ⟨piece, hpiece, rfl⟩ := List.mem_map.mp hpart
  rw [String.toList_ofList]
  exact Text.not_mem_of_mem_pieces hpiece

/-- A part of a path holds nothing but characters of the path. -/
theorem mem_of_mem_parts {path part : String} {c : Char} (hpart : part ∈ parts path)
    (hc : c ∈ part.toList) : c ∈ path.toList := by
  obtain ⟨piece, hpiece, rfl⟩ := List.mem_map.mp hpart
  rw [String.toList_ofList] at hc
  exact Text.mem_of_mem_pieces hpiece hc

/-- What stands in a row in a part stands so in the path. -/
theorem infix_of_mem_parts {path part : String} (hpart : part ∈ parts path) :
    part.toList <:+: path.toList := by
  obtain ⟨piece, hpiece, rfl⟩ := List.mem_map.mp hpart
  rw [String.toList_ofList]
  exact Text.infix_of_mem_pieces hpiece

/-- A text that ends with a slash is another one with a slash behind it. -/
theorem exists_of_endsWithSlash {dir : String} (h : endsWithSlash dir = true) :
    ∃ front, dir = front ++ "/" := by
  obtain ⟨cs, hcs⟩ := List.getLast?_eq_some_iff.mp (of_decide_eq_true h)
  refine ⟨String.ofList cs, ?_⟩
  rw [← String.toList_inj, String.toList_append, hcs, String.toList_ofList]
  rfl

theorem endsWithSlash_of_not_mem {name : String} (h : '/' ∉ name.toList) :
    endsWithSlash name = false := by
  rw [endsWithSlash, decide_eq_false_iff_not]
  exact fun hlast ↦ h (List.mem_of_getLast? hlast)

/-- Whether a path ends with a slash is told by its end. -/
theorem endsWithSlash_append (front : String) {back : String} (h : back ≠ "") :
    endsWithSlash (front ++ back) = endsWithSlash back := by
  rw [endsWithSlash, endsWithSlash, String.toList_append,
    List.getLast?_append_of_ne_nil _ (mt String.toList_eq_nil_iff.mp h)]

/-- A name that a directory can hold. -/
structure IsName (name : String) : Prop where
  slash_not_mem : '/' ∉ name.toList
  ne_empty : name ≠ ""
  ne_here : name ≠ "."
  ne_above : name ≠ ".."

theorem isAbsolute_of_not_mem {name : String} (h : '/' ∉ name.toList) :
    isAbsolute name = false := by
  rw [isAbsolute, decide_eq_false_iff_not]
  exact fun hhead ↦ h (List.mem_of_mem_head? hhead)

/-- Whether a path starts at the root is told by its first character. -/
theorem isAbsolute_append {front : String} (h : front ≠ "") (back : String) :
    isAbsolute (front ++ back) = isAbsolute front := by
  obtain ⟨c, cs, hcs⟩ := List.exists_cons_of_ne_nil (mt String.toList_eq_nil_iff.mp h)
  rw [isAbsolute, isAbsolute, String.toList_append, hcs]
  rfl

/-- The first part of an absolute path is empty. -/
theorem exists_of_isAbsolute {path : String} (h : isAbsolute path = true) :
    ∃ below, path = "/" ++ below ∧ parts path = "" :: parts below := by
  obtain ⟨cs, hcs⟩ := List.head?_eq_some_iff.mp (of_decide_eq_true h)
  have hpath : path = "/" ++ String.ofList cs := by
    have hbelow : (String.ofList cs).toList = cs := String.toList_ofList
    rw [← String.toList_inj, String.toList_append, hcs, hbelow]
    rfl
  refine ⟨String.ofList cs, hpath, ?_⟩
  have hparts := parts_append_slash "" (String.ofList cs)
  rw [String.empty_append, ← hpath] at hparts
  exact hparts

/-- Nothing else starts with an empty part, but for the empty path. -/
theorem parts_ne_empty_cons {path : String} (hne : path ≠ "") (h : isAbsolute path = false)
    (behind : List String) : parts path ≠ "" :: behind := by
  intro hparts
  obtain ⟨c, cs, hcs⟩ := List.exists_cons_of_ne_nil (mt String.toList_eq_nil_iff.mp hne)
  have hc : c ≠ '/' := by
    rintro rfl
    rw [isAbsolute, hcs, List.head?_cons, decide_eq_false_iff_not] at h
    exact h rfl
  obtain ⟨head, tail, hs⟩ := List.exists_cons_of_ne_nil (@Text.pieces_ne_nil '/' cs)
  rw [parts, hcs, Text.pieces_cons_of_ne hc hs, List.map_cons] at hparts
  have hhead := congrArg String.toList (List.cons.inj hparts).1
  rw [String.toList_ofList] at hhead
  exact List.cons_ne_nil c head hhead

/-- The path of a name in a directory: one slash stands between the two, which is added unless the
directory ends with it. -/
inductive Joined (dir name : String) : String → Prop
  | added (hend : endsWithSlash dir = false) : Joined dir name (dir ++ "/" ++ name)
  | kept {front : String} (hdir : dir = front ++ "/") : Joined dir name (front ++ "/" ++ name)

theorem joined_join {dir name : String} (hdir : dir ≠ "") (hname : '/' ∉ name.toList) :
    Joined dir name (join dir name) := by
  rw [join, isAbsolute_of_not_mem hname, if_neg Bool.false_ne_true]
  cases hend : endsWithSlash dir with
  | true =>
    obtain ⟨front, rfl⟩ := exists_of_endsWithSlash hend
    rw [if_pos (Bool.or_true _)]
    exact .kept rfl
  | false =>
    rw [if_neg (by simp [hdir])]
    exact .added hend

section Components

variable {dir name : String}

theorem components_ne_nil (path : String) : components path ≠ [] := by
  obtain ⟨first, rest, hparts⟩ := List.exists_cons_of_ne_nil (parts_ne_nil path)
  rw [components, hparts]
  exact List.cons_ne_nil _ _

theorem components_append_slash (front back : String) :
    components (front ++ "/" ++ back) = components front ++ (parts back).filter counts := by
  obtain ⟨first, rest, hparts⟩ := List.exists_cons_of_ne_nil (parts_ne_nil front)
  rw [components, components, parts_append_slash, hparts]
  simp only [List.cons_append, List.filter_append]

theorem components_append_slash_end (front : String) :
    components (front ++ "/") = components front := by
  obtain ⟨first, rest, hparts⟩ := List.exists_cons_of_ne_nil (parts_ne_nil front)
  have hend : [""].filter counts = [] := rfl
  rw [components, components, parts_append_slash_end, hparts]
  simp only [List.cons_append, List.filter_append, hend, List.append_nil]

/-- A part below a directory is one component more, if it counts. -/
theorem components_join (hdir : dir ≠ "") (hname : '/' ∉ name.toList) :
    components (join dir name) = components dir ++ [name].filter counts := by
  have hjoined := joined_join hdir hname
  generalize join dir name = path at hjoined ⊢
  cases hjoined with
  | added hend => rw [components_append_slash, parts_of_not_mem hname]
  | kept hdir =>
    rw [components_append_slash, parts_of_not_mem hname, hdir, components_append_slash_end]

/-- A name below a directory is one component more. -/
theorem IsName.components_join (h : IsName name) (hdir : dir ≠ "") :
    components (join dir name) = components dir ++ [name] := by
  have hcounts : [name].filter counts = [name] := by simp [counts, h.ne_empty, h.ne_here]
  rw [Path.components_join hdir h.slash_not_mem, hcounts]

theorem components_of_not_mem (h : '/' ∉ name.toList) : components name = [name] := by
  rw [components, parts_of_not_mem h]
  rfl

theorem join_ne_empty (h : dir ≠ "") (path : String) : join dir path ≠ "" := by
  unfold join
  split_ifs with habsolute hend
  · rintro rfl
    exact nomatch habsolute
  · exact fun hempty ↦ h (String.append_eq_empty_iff.mp hempty).1
  · exact fun hempty ↦ h (String.append_eq_empty_iff.mp (String.append_eq_empty_iff.mp hempty).1).1

end Components

section Size

/-- The bytes of a directory and the slash behind it. -/
def reach (dir : String) : ℕ :=
  if endsWithSlash dir then dir.utf8ByteSize else dir.utf8ByteSize + 1

theorem reach_le (dir : String) : reach dir ≤ dir.utf8ByteSize + 1 := by
  unfold reach
  split_ifs <;> omega

theorem endsWithSlash_append_slash (front : String) : endsWithSlash (front ++ "/") = true := by
  have hslash : "/".toList = ['/'] := rfl
  rw [endsWithSlash, String.toList_append, hslash, List.getLast?_concat]
  rfl

theorem utf8ByteSize_join {dir name : String} (hdir : dir ≠ "") (hname : '/' ∉ name.toList) :
    (join dir name).utf8ByteSize = reach dir + name.utf8ByteSize := by
  have hslash : "/".utf8ByteSize = 1 := rfl
  have hjoined := joined_join hdir hname
  generalize join dir name = path at hjoined ⊢
  cases hjoined with
  | added hend =>
    rw [reach, hend, if_neg Bool.false_ne_true, String.utf8ByteSize_append,
      String.utf8ByteSize_append, hslash]
  | kept hdir =>
    rw [reach, hdir, endsWithSlash_append_slash, if_pos rfl, String.utf8ByteSize_append]

/-- The bytes of parts with a slash behind each. -/
def partsSize : List String → ℕ
  | [] => 0
  | part :: rest => part.utf8ByteSize + 1 + partsSize rest

theorem length_le_partsSize (parts : List String) : parts.length ≤ partsSize parts := by
  induction parts with
  | nil => exact le_rfl
  | cons part rest ih =>
    rw [List.length_cons, partsSize]
    omega

/-- The parts of a path and the slashes between them are the path. -/
theorem partsSize_parts (path : String) : partsSize (parts path) = path.utf8ByteSize + 1 := by
  have hpieces (cs : List Char) : partsSize ((Text.pieces '/' cs).map String.ofList) =
      (String.ofList cs).utf8ByteSize + 1 := by
    induction cs with
    | nil => rfl
    | cons c cs ih =>
      obtain ⟨head, tail, hs⟩ := List.exists_cons_of_ne_nil (@Text.pieces_ne_nil '/' cs)
      rw [hs, List.map_cons, partsSize] at ih
      rw [String.ofList_cons, String.utf8ByteSize_append, String.utf8ByteSize_singleton]
      by_cases hc : c = '/'
      · subst hc
        have hsize : '/'.utf8Size = 1 := rfl
        have hempty : (String.ofList []).utf8ByteSize = 0 := rfl
        rw [Text.pieces, if_pos rfl, hs, List.map_cons, List.map_cons, partsSize,
          partsSize]
        omega
      · rw [Text.pieces_cons_of_ne hc hs, List.map_cons, partsSize, String.ofList_cons,
          String.utf8ByteSize_append, String.utf8ByteSize_singleton]
        omega
  rw [parts, hpieces, String.ofList_toList]

end Size

/-- Whether a path comes before another in the order of the bytes of their components. -/
def Before (a b : String) : Prop := List.Lex Text.BytesBefore (components a) (components b)

theorem not_before_self (path : String) : ¬Before path path :=
  List.lex_irrefl Text.not_bytesBefore_self (components path)

/-- Of a name with a dot, what is behind the last one is the extension, if something is in front. -/
theorem extension?_append {stem ext : String} (h : '.' ∉ ext.toList) :
    extension? (stem ++ "." ++ ext) =
      if stem = "" ∨ stem ++ "." ++ ext = ".." then none else some ext := by
  have hreverse : (stem ++ "." ++ ext).toList.reverse =
      ext.toList.reverse ++ '.' :: stem.toList.reverse := by
    simp
  have hkeep : ∀ c ∈ ext.toList.reverse, (c != '.') = true := by
    intro c hc
    rw [bne_iff_ne]
    rintro rfl
    exact h (List.mem_reverse.mp hc)
  have hdrop : (stem ++ "." ++ ext).toList.reverse.dropWhile (· != '.') =
      '.' :: stem.toList.reverse := by
    rw [hreverse, List.dropWhile_append_of_pos hkeep]
    rfl
  have htake : (stem ++ "." ++ ext).toList.reverse.takeWhile (· != '.') = ext.toList.reverse := by
    rw [hreverse, List.takeWhile_append_of_pos hkeep]
    exact List.append_nil _
  simp only [extension?, hdrop, htake, List.reverse_reverse, String.ofList_toList]
  simp

theorem extension?_of_not_mem {name : String} (h : '.' ∉ name.toList) : extension? name = none := by
  have hdrop : name.toList.reverse.dropWhile (· != '.') = [] := by
    refine List.dropWhile_eq_nil_iff.mpr fun c hc ↦ ?_
    rw [bne_iff_ne]
    rintro rfl
    exact h (List.mem_reverse.mp hc)
  simp only [extension?, hdrop]

/-- A name with a dot in it has a last one. -/
theorem exists_of_dot_mem {name : String} (h : '.' ∈ name.toList) :
    ∃ stem ext, name = stem ++ "." ++ ext ∧ '.' ∉ ext.toList := by
  obtain ⟨back, front, hname, hback⟩ :=
    List.eq_append_cons_of_mem (List.mem_reverse.mpr h)
  refine ⟨String.ofList front.reverse, String.ofList back.reverse, ?_, ?_⟩
  · rw [← String.toList_inj, ← List.reverse_reverse name.toList, hname]
    simp
  · rw [String.toList_ofList, List.mem_reverse]
    exact hback

/-- An extension is what stands behind the last dot of a name, where something stands in front of
it. -/
theorem extension?_eq_some_iff {name ext : String} :
    extension? name = some ext ↔
      ∃ stem, name = stem ++ "." ++ ext ∧ stem ≠ "" ∧ '.' ∉ ext.toList ∧ name ≠ ".." := by
  constructor
  · intro h
    by_cases hdot : '.' ∈ name.toList
    · obtain ⟨stem, last, rfl, hlast⟩ := exists_of_dot_mem hdot
      rw [extension?_append hlast] at h
      obtain ⟨hnone, hsome⟩ := Option.ite_none_left_eq_some.mp h
      obtain rfl := Option.some.inj hsome
      obtain ⟨hstem, hdots⟩ := not_or.mp hnone
      exact ⟨stem, rfl, hstem, hlast, hdots⟩
    · rw [extension?_of_not_mem hdot] at h
      exact nomatch h
  · rintro ⟨stem, rfl, hstem, hext, hdots⟩
    rw [extension?_append hext, if_neg (not_or.mpr ⟨hstem, hdots⟩)]

end FenceLint.Path
