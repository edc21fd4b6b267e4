import FenceLint.Proofs.Harness.Framing
import FenceLint.Proofs.Json.Fragments

/-!
Requests as a process hears them. Its reader ends a line not only at a line feed, but also at a
carriage return, with or without a line feed behind it, and at the separators U+2028 and U+2029.
JSON escapes the first two and leaves the separators as they are, so a request is cut just at the
separators of its code (`filter_endsLine_requestLine`). None of the lines that a cut request falls
into is an object with members, and so none gives the process a number or a code
(`filterMap_readLines_requestLine`): a request is heard as it was written, or not at all.
-/

set_option autoImplicit false

namespace FenceLint.Harness

section Reader

/-- The separators of lines and of paragraphs. -/
def isSeparator (c : Char) : Bool := c = '\u2028' || c = '\u2029'

/-- The characters at which the reader of a process ends a line. -/
def endsLine (c : Char) : Bool := c = '\n' || c = '\r' || isSeparator c

/-- The lines of a text as the reader of a process gets them, with what it has of the next line. A
line feed right behind a carriage return ends the same line. -/
def readLines : List Char → List (List Char)
  | [] => [[]]
  | '\r' :: '\n' :: rest => [] :: readLines rest
  | c :: rest =>
    if endsLine c then [] :: readLines rest
    else match readLines rest with
      | [] => [[c]]
      | head :: tail => (c :: head) :: tail

/-- What a process finds in a line: an object with members. Any other value, and a line that is no
value, has neither a number nor a code. -/
def objectIn? (line : List Char) : Option Json :=
  match Json.parse? (String.ofList line) with
  | some (.object (m :: rest)) => some (.object (m :: rest))
  | _ => none

variable {c : Char} {cs rest : List Char}

theorem readLines_cons (hreturn : c ≠ '\r') : readLines (c :: rest) =
    if endsLine c then [] :: readLines rest
    else match readLines rest with
      | [] => [[c]]
      | head :: tail => (c :: head) :: tail :=
  readLines.eq_3 c rest fun _ hc ↦ absurd hc hreturn

theorem readLines_end (hreturn : c ≠ '\r') (hend : endsLine c = true) :
    readLines (c :: rest) = [] :: readLines rest := by
  rw [readLines_cons hreturn, if_pos hend]

theorem exists_readLines_eq_cons (cs : List Char) : ∃ head tail, readLines cs = head :: tail := by
  fun_induction readLines cs with
  | case1 => exact ⟨[], [], rfl⟩
  | case2 rest => exact ⟨[], readLines rest, rfl⟩
  | case3 c rest => exact ⟨[], readLines rest, rfl⟩
  | case4 c rest => exact ⟨[c], [], rfl⟩
  | case5 c rest _ _ head tail => exact ⟨c :: head, tail, rfl⟩

theorem not_endsLine_of_ne (h : endsLine c = false) : c ≠ '\r' := by
  rintro rfl
  exact absurd h (by decide)

/-- Characters that end no line go to the front of the first one. -/
theorem readLines_append_plain {front head : List Char} {tail : List (List Char)}
    (hfront : ∀ c ∈ front, endsLine c = false) (h : readLines rest = head :: tail) :
    readLines (front ++ rest) = (front ++ head) :: tail := by
  induction front with
  | nil => exact h
  | cons c front ih =>
    obtain ⟨hc, hmore⟩ := List.forall_mem_cons.mp hfront
    rw [List.cons_append, readLines_cons (not_endsLine_of_ne hc), hc, ih hmore]
    rfl

/-- A text with no line end in it is one line. -/
theorem readLines_plain (h : ∀ c ∈ cs, endsLine c = false) : readLines cs = [cs] := by
  have hlines : readLines (cs ++ []) = [cs ++ []] := readLines_append_plain h rfl
  rwa [List.append_nil] at hlines

/-- The lines on both sides of a character that ends one. Only behind a carriage return it would
depend on what is in front. -/
theorem readLines_append_cons (hcs : '\r' ∉ cs) (hreturn : c ≠ '\r') (hend : endsLine c = true) :
    readLines (cs ++ c :: rest) = readLines cs ++ readLines rest := by
  induction cs with
  | nil => exact readLines_end hreturn hend
  | cons d cs ih =>
    have hd : d ≠ '\r' := fun hd ↦ hcs (hd ▸ List.mem_cons_self)
    have hmore := ih fun hmem ↦ hcs (List.mem_cons_of_mem d hmem)
    obtain ⟨head, tail, hlines⟩ := exists_readLines_eq_cons cs
    rw [List.cons_append, readLines_cons hd, readLines_cons hd, hmore, hlines]
    by_cases hdend : endsLine d = true
    · rw [if_pos hdend, if_pos hdend]
      rfl
    · rw [if_neg hdend, if_neg hdend]
      rfl

/-- Each line that was written is read on its own. -/
theorem readLines_stream {lines : List String} (h : ∀ line ∈ lines, '\r' ∉ line.toList) :
    readLines (stream lines) = lines.flatMap (fun line ↦ readLines line.toList) ++ [[]] := by
  induction lines with
  | nil => rfl
  | cons line rest ih =>
    obtain ⟨hline, hrest⟩ := List.forall_mem_cons.mp h
    rw [stream_cons, readLines_append_cons hline (by decide) (by decide), ih hrest,
      List.flatMap_cons, List.append_assoc]

end Reader

section Escaped

variable {c : Char}

theorem endsLine_of_shown (h : 32 ≤ c.toNat) : endsLine c = isSeparator c := by
  have hfeed : c ≠ '\n' := by
    rintro rfl
    exact absurd h (by decide)
  have hreturn : c ≠ '\r' := by
    rintro rfl
    exact absurd h (by decide)
  simp only [endsLine, hfeed, hreturn, decide_false, Bool.false_or]

theorem filter_isSeparator_small {cs : List Char} (h : ∀ c ∈ cs, c.toNat < 128) :
    cs.filter isSeparator = [] := by
  rw [List.filter_eq_nil_iff]
  intro c hc hseparator
  have hlt := h c hc
  simp only [isSeparator, Bool.or_eq_true, decide_eq_true_eq] at hseparator
  rcases hseparator with rfl | rfl <;> exact absurd hlt (by decide)

/-- The characters that have an escape of one letter, and these letters, are small. -/
theorem lt_of_simpleEscape? {letter : Char} (h : Json.simpleEscape? letter = some c) :
    letter.toNat < 128 ∧ c.toNat < 128 := by
  unfold Json.simpleEscape? at h
  split_ifs at h with h1
  · obtain rfl := Option.some.inj h
    simp only [Bool.or_eq_true, decide_eq_true_eq] at h1
    rcases h1 with (rfl | rfl) | rfl <;> decide
  all_goals
    subst letter
    obtain rfl := Option.some.inj h
    decide

theorem hexChar_lt : ∀ n < 16, (Json.hexChar n).toNat < 128 := by decide

theorem digitChar_lt : ∀ d, (Decimal.digitChar d).toNat < 128 := by decide

/-- Escaping leaves a separator as it is, and brings none in. -/
theorem filter_isSeparator_escapeChar (c : Char) :
    (Json.escapeChar c).filter isSeparator = [c].filter isSeparator := by
  rcases Json.escapeChar_cases c with ⟨letter, hletter, h⟩ | ⟨hlt, h⟩ | ⟨-, -, -, h⟩
  · obtain ⟨hletter, hc⟩ := lt_of_simpleEscape? hletter
    have hsmall : ∀ d ∈ ['\\', letter], d.toNat < 128 := by simp [hletter]
    rw [h, filter_isSeparator_small hsmall,
      filter_isSeparator_small (List.forall_mem_singleton.mpr hc)]
  · have hhigh := hexChar_lt (c.toNat / 16) (by omega)
    have hlow := hexChar_lt (c.toNat % 16) (by omega)
    have hsmall : ∀ d ∈ ['\\', 'u', '0', '0', Json.hexChar (c.toNat / 16),
        Json.hexChar (c.toNat % 16)], d.toNat < 128 := by simp [hhigh, hlow]
    rw [h, filter_isSeparator_small hsmall,
      filter_isSeparator_small (List.forall_mem_singleton.mpr (hlt.trans (by decide)))]
  · rw [h]

theorem filter_isSeparator_escaped (cs : List Char) :
    (cs.flatMap Json.escapeChar).filter isSeparator = cs.filter isSeparator := by
  induction cs with
  | nil => rfl
  | cons c cs ih =>
    rw [List.flatMap_cons, List.filter_append, filter_isSeparator_escapeChar, ih,
      ← List.filter_append, List.singleton_append]

end Escaped

section Request

variable (id : Nat) (code : String)

/-- A request up to its code. -/
def requestFront : List Char :=
  '{' :: Json.compactMembers [(some "id", .nat id)] ++ ',' :: Json.quote "code".toList ++
    [':', '"']

theorem toList_requestLine : (requestLine id code).toList =
    requestFront id ++ (code.toList.flatMap Json.escapeChar ++ ['"', '}']) := by
  rw [requestLine, Json.compact, String.toList_ofList]
  simp [Json.record, Json.text, Json.compactChars, Json.compactMembers, Json.quoted, Json.quote,
    requestFront]

theorem toList_requestFront : requestFront id = ['{', '"', 'i', 'd', '"', ':'] ++
    (Decimal.chars id ++ [',', '"', 'c', 'o', 'd', 'e', '"', ':', '"']) := by
  have hnumber : Json.compactChars (.nat id) = Decimal.chars id := by
    simp [Json.compactChars, Json.nat, Json.Number.chars]
  rw [requestFront, Json.compactMembers, hnumber, List.append_assoc, List.cons_append,
    List.append_assoc]
  rfl

theorem requestFront_lt : ∀ c ∈ requestFront id, c.toNat < 128 := by
  have hdigits : ∀ c ∈ Decimal.chars id, c.toNat < 128 := by
    intro c hc
    obtain ⟨d, -, rfl⟩ := List.mem_map.mp hc
    exact digitChar_lt d
  rw [toList_requestFront]
  exact List.forall_mem_append.mpr ⟨by simp, List.forall_mem_append.mpr ⟨hdigits, by simp⟩⟩

/-- The characters of a request that end a line are the separators of its code. -/
theorem filter_endsLine_requestLine :
    (requestLine id code).toList.filter endsLine = code.toList.filter isSeparator := by
  have hline : (requestLine id code).toList.filter endsLine =
      (requestLine id code).toList.filter isSeparator :=
    List.filter_congr fun c hc ↦ endsLine_of_shown (shown_requestLine id code c hc)
  have htail : ['"', '}'].filter isSeparator = [] := by decide
  rw [hline, toList_requestLine, List.filter_append, List.filter_append,
    filter_isSeparator_small (requestFront_lt id), filter_isSeparator_escaped, htail,
    List.nil_append, List.append_nil]

/-- What is left of a request that is cut inside its code is no JSON. -/
theorem parse?_requestFront (cs : List Char) :
    Json.parse? (String.ofList (requestFront id ++ cs.flatMap Json.escapeChar)) = none := by
  have hopen : Json.tokens ('"' :: cs.flatMap Json.escapeChar) = none := by
    have hread : Json.readToken ('"' :: cs.flatMap Json.escapeChar) = none := by
      rw [Json.readToken, Json.readPieces_unclosed, Option.map_none]
    rw [Json.tokens_eq, List.dropWhile_cons_of_neg (by decide)]
    simp only [hread, Option.bind_none]
  have htokens : Json.tokens (requestFront id ++ cs.flatMap Json.escapeChar) = none := by
    have hbrace := Json.tokens_append (t := .openObject) rfl
    have hid := Json.tokens_compactMembers [(some "id", .nat id)]
    have hcomma := Json.tokens_append (t := .comma) rfl
    have hcode := Json.tokens_append (t := .string (some "code")) rfl
    have hcolon := Json.tokens_append (t := .colon) rfl
    simp only [Json.Token.spell, Json.quoted, List.cons_append, List.nil_append]
      at hbrace hcomma hcode hcolon
    simp only [requestFront, List.cons_append, List.append_assoc, List.nil_append]
    rw [hbrace, hid _ (Json.ends_comma _), hcomma, hcode, hcolon, hopen]
    rfl
  simp only [Json.parse?, String.toList_ofList, htokens, Option.bind_eq_bind, Option.bind_none]

theorem objectIn?_requestLine :
    objectIn? (requestLine id code).toList = some (request id code) := by
  rw [objectIn?, String.ofList_toList, parse?_requestLine]
  rfl

theorem objectIn?_stringless {cs : List Char} (h : Json.Stringless cs) : objectIn? cs = none := by
  unfold objectIn?
  split
  · next m rest hparse =>
    exact absurd hparse (Json.parse?_ne_object (by rwa [String.toList_ofList]) m rest)
  · rfl

end Request

section Cut

variable {cs : List Char}

/-- Where no control character and no separator is, no line ends. -/
theorem not_endsLine_of_filter (hshown : Json.Shown cs) (h : cs.filter isSeparator = []) :
    ∀ c ∈ cs, endsLine c = false := by
  intro c hc
  rw [endsLine_of_shown (hshown c hc), Bool.eq_false_iff]
  exact List.filter_eq_nil_iff.mp h c hc

/-- A separator stands for itself in a request and ends a line there. -/
theorem separator_stands {c : Char} (h : isSeparator c = true) :
    Json.escapeChar c = [c] ∧ c ≠ '\r' ∧ endsLine c = true := by
  simp only [isSeparator, Bool.or_eq_true, decide_eq_true_eq] at h
  rcases h with rfl | rfl <;> decide

/-- A line cut out of the inside of a string and what follows holds no string, if what follows holds
none. -/
theorem stringless_of_mem_readLines {tail piece : List Char}
    (hends : ∀ c ∈ tail, endsLine c = false) (htail : Json.Stringless tail)
    (h : piece ∈ readLines (cs.flatMap Json.escapeChar ++ tail)) : Json.Stringless piece := by
  induction cs generalizing piece with
  | nil =>
    rw [List.flatMap_nil, List.nil_append, readLines_plain hends, List.mem_singleton] at h
    exact h ▸ htail
  | cons c cs ih =>
    rw [List.flatMap_cons, List.append_assoc] at h
    cases hseparator : isSeparator c with
    | true =>
      obtain ⟨hescape, hreturn, hend⟩ := separator_stands hseparator
      rw [hescape, List.singleton_append, readLines_end hreturn hend] at h
      rcases List.mem_cons.mp h with rfl | h
      · exact Json.stringless_nil
      · exact ih h
    | false =>
      have hplain : ∀ d ∈ Json.escapeChar c, endsLine d = false :=
        not_endsLine_of_filter (Json.shown_escapeChar c) (by
          rw [filter_isSeparator_escapeChar, List.filter_cons, hseparator]
          rfl)
      obtain ⟨head, more, hlines⟩ :=
        exists_readLines_eq_cons (cs.flatMap Json.escapeChar ++ tail)
      rw [readLines_append_plain hplain hlines] at h
      rcases List.mem_cons.mp h with rfl | h
      · exact Json.stringless_escapeChar c (ih (hlines ▸ List.mem_cons_self))
      · exact ih (hlines ▸ List.mem_cons_of_mem head h)

variable (id : Nat) (code : String)

/-- A request whose code holds no separator is one line. -/
theorem readLines_requestLine (h : code.toList.any isSeparator = false) :
    readLines (requestLine id code).toList = [(requestLine id code).toList] := by
  have hnone : (requestLine id code).toList.filter endsLine = [] := by
    rw [filter_endsLine_requestLine, List.filter_eq_nil_iff]
    exact List.any_eq_false.mp h
  refine readLines_plain fun c hc ↦ ?_
  rw [Bool.eq_false_iff]
  exact List.filter_eq_nil_iff.mp hnone c hc

/-- A request is found in its lines when no separator cuts it; else nothing is. -/
theorem filterMap_readLines_requestLine :
    (readLines (requestLine id code).toList).filterMap objectIn? =
      if code.toList.any isSeparator then [] else [request id code] := by
  cases hfirst : code.toList.find? isSeparator with
  | none =>
    have hany : code.toList.any isSeparator = false :=
      List.any_eq_false.mpr (List.find?_eq_none.mp hfirst)
    rw [hany, readLines_requestLine id code hany, List.filterMap_cons, objectIn?_requestLine]
    rfl
  | some c =>
    obtain ⟨hc, before, behind, hsplit, hbefore⟩ := List.find?_eq_some_iff_append.mp hfirst
    have hany : code.toList.any isSeparator = true :=
      List.any_eq_true.mpr ⟨c, List.mem_of_find?_eq_some hfirst, hc⟩
    let front := requestFront id ++ before.flatMap Json.escapeChar
    let rest := behind.flatMap Json.escapeChar ++ ['"', '}']
    obtain ⟨hescape, hreturn, hend⟩ := separator_stands hc
    have hline : (requestLine id code).toList = front ++ c :: rest := by
      rw [toList_requestLine, hsplit, List.flatMap_append, List.flatMap_cons, hescape]
      simp only [front, rest, List.append_assoc, List.cons_append, List.nil_append]
    have hfront : ∀ d ∈ front, endsLine d = false := by
      refine not_endsLine_of_filter ?_ ?_
      · intro d hd
        exact shown_requestLine id code d (hline ▸ List.mem_append_left _ hd)
      · rw [List.filter_append, filter_isSeparator_small (requestFront_lt id),
          filter_isSeparator_escaped, List.nil_append, List.filter_eq_nil_iff]
        intro d hd
        simpa using hbefore d hd
    have hreturns : '\r' ∉ front := fun hmem ↦ absurd (hfront _ hmem) (by decide)
    rw [hany, if_pos rfl, hline, readLines_append_cons hreturns hreturn hend,
      readLines_plain hfront, List.filterMap_eq_nil_iff]
    intro piece hpiece
    rcases List.mem_append.mp hpiece with hpiece | hpiece
    · rw [List.mem_singleton.mp hpiece, objectIn?, parse?_requestFront]
    · have hends : ∀ d ∈ ['"', '}'], endsLine d = false := by simp [endsLine, isSeparator]
      have htail : Json.Stringless ['"', '}'] := Json.stringless_quote (by decide)
      exact objectIn?_stringless (stringless_of_mem_readLines hends htail hpiece)

theorem objectIn?_nil : objectIn? [] = none := objectIn?_stringless Json.stringless_nil

/-- Of several requests on the stream, those whose code holds no separator are found in its lines,
and nothing else is. -/
theorem filterMap_readLines_stream (requests : List (Nat × String)) :
    (readLines (stream (requests.map fun r ↦ requestLine r.1 r.2))).filterMap objectIn? =
      (requests.filter fun r ↦ !r.2.toList.any isSeparator).map fun r ↦ request r.1 r.2 := by
  have hreturn : ∀ line ∈ requests.map (fun r ↦ requestLine r.1 r.2), '\r' ∉ line.toList := by
    intro line hline hmem
    obtain ⟨r, -, rfl⟩ := List.mem_map.mp hline
    exact absurd (shown_requestLine r.1 r.2 _ hmem) (by decide)
  rw [readLines_stream hreturn, List.filterMap_append, List.filterMap_cons_none objectIn?_nil,
    List.filterMap_nil, List.append_nil, List.filterMap_flatMap, List.flatMap_map]
  clear hreturn
  induction requests with
  | nil => rfl
  | cons r rest ih =>
    rw [List.flatMap_cons, ih, filterMap_readLines_requestLine]
    cases hany : r.2.toList.any isSeparator <;> simp [hany]

end Cut

/-- Codes with the numbers of their requests. -/
def numbered (calls : List (String × Option Duration)) : List (Nat × String) :=
  calls.mapIdx fun k call ↦ (k, call.1)

/-- What a new session writes are the requests for the first of its codes, numbered from zero. -/
theorem Session.written_numbered (number : Nat) (child : Child) (version : String)
    (calls : List (String × Option Duration)) :
    let lines := (Session.mk number child 0 version).written calls
    lines = (numbered (calls.take lines.length)).map fun r ↦ requestLine r.1 r.2 := by
  intro lines
  refine List.ext_getElem? fun k ↦ ?_
  rw [List.getElem?_map, numbered, List.getElem?_mapIdx, List.getElem?_take]
  cases hline : lines[k]? with
  | none => rw [if_neg (Nat.not_lt.mpr (List.getElem?_eq_none_iff.mp hline))]; rfl
  | some line =>
    obtain ⟨call, hcall, rfl⟩ := Session.line_of_written hline
    rw [if_pos (List.getElem?_eq_some_iff.mp hline).1, hcall, Nat.zero_add]
    rfl

/-- The reader of a process cuts each request of a new session at the separators of its code and
nowhere else, so the requests are its lines just when no code holds a separator. Whatever the codes,
the requests whose code holds none are found in the lines, in order and as they were made, and of a
request that is cut no line is an object with members. -/
theorem requests_heard_or_cut (number : Nat) (child : Child) (version : String)
    (calls : List (String × Option Duration)) :
    let s : Session := ⟨number, child, 0, version⟩
    let lines := s.written calls
    let requests := numbered (calls.take lines.length)
    let heard := readLines (stream lines)
    lines = requests.map (fun r ↦ requestLine r.1 r.2) ∧
      heard = lines.flatMap (fun line ↦ readLines line.toList) ++ [[]] ∧
      (∀ r ∈ requests,
        (requestLine r.1 r.2).toList.filter endsLine = r.2.toList.filter isSeparator) ∧
      (heard = lines.map String.toList ++ [[]] ↔
        ∀ r ∈ requests, r.2.toList.any isSeparator = false) ∧
      heard.filterMap objectIn? =
        (requests.filter fun r ↦ !r.2.toList.any isSeparator).map fun r ↦ request r.1 r.2 := by
  intro s lines requests heard
  have hlines : lines = requests.map fun r ↦ requestLine r.1 r.2 :=
    Session.written_numbered number child version calls
  have hreturn : ∀ line ∈ lines, '\r' ∉ line.toList := by
    intro line hline hmem
    exact absurd (Session.shown_of_mem_written hline _ hmem) (by decide)
  have hheard : heard = lines.flatMap (fun line ↦ readLines line.toList) ++ [[]] :=
    readLines_stream hreturn
  have hfound : heard.filterMap objectIn? =
      (requests.filter fun r ↦ !r.2.toList.any isSeparator).map fun r ↦ request r.1 r.2 := by
    change (readLines (stream lines)).filterMap objectIn? = _
    rw [hlines]
    exact filterMap_readLines_stream requests
  refine ⟨hlines, hheard, fun r _ ↦ filter_endsLine_requestLine r.1 r.2, ⟨?_, ?_⟩, hfound⟩
  · intro hwhole
    have hall : heard.filterMap objectIn? = requests.map fun r ↦ request r.1 r.2 := by
      rw [hwhole, hlines, List.filterMap_append, List.filterMap_cons_none objectIn?_nil,
        List.filterMap_nil, List.append_nil, List.map_map, List.filterMap_map,
        ← List.filterMap_eq_map]
      exact List.filterMap_congr fun r _ ↦ objectIn?_requestLine r.1 r.2
    have hlength := congrArg List.length (hfound.symm.trans hall)
    rw [List.length_map, List.length_map, List.length_filter_eq_length_iff] at hlength
    intro r hr
    simpa using hlength r hr
  · intro hnone
    rw [hheard, hlines, List.flatMap_map, List.map_map, List.map_eq_flatMap]
    refine congrArg (· ++ [[]]) (List.flatMap_congr fun r hr ↦ ?_)
    exact readLines_requestLine r.1 r.2 (hnone r hr)

/-- A code with a separator between its two lines. -/
def separated : String := "graph TD\u2028A"

/-- A request is not one line: the separator is in it as it is in its code, the reader ends a line
there, and of the two lines that it gets neither is an object. -/
theorem request_cut_in_two :
    let s : Session := ⟨0, .start mute, 0, "11.0.0"⟩
    let lines := s.written [(separated, none)]
    lines = [requestLine 0 separated] ∧ '\u2028' ∈ (requestLine 0 separated).toList ∧
      readLines (stream lines) =
        ["\x7b\"id\":0,\"code\":\"graph TD".toList, "A\"\x7d".toList, []] ∧
      (readLines (stream lines)).filterMap objectIn? = [] := by
  intro s lines
  have hlines : lines = [requestLine 0 separated] := rfl
  have hzero : Decimal.chars 0 = ['0'] := by
    rw [Decimal.chars, Decimal.digits]
    rfl
  have hline : (requestLine 0 separated).toList =
      "\x7b\"id\":0,\"code\":\"graph TD\u2028A\"\x7d".toList := by
    rw [toList_requestLine, toList_requestFront, hzero]
    rfl
  refine ⟨hlines, by rw [hline]; decide, ?_, ?_⟩
  · rw [hlines, stream, List.flatMap_singleton, hline]
    decide
  · exact filterMap_readLines_stream [(0, separated)]

end FenceLint.Harness
