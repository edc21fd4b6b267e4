import FenceLint.Glob.Expand
import FenceLint.Proofs.Glob.Search

/-!
Names as patterns. How a pattern is read is told by `Reads`, where positions play no part: they only
place an error. Patterns that can be read are put together by slashes (`Reads.append_slash`), and
one that has neither brackets nor two stars in a row fits its own text (`Reads.fits`).
-/

set_option autoImplicit false

namespace FenceLint.Glob

section Reads

/-- The characters that do not stand for themselves. -/
def special : List Char := ['?', '*', '[']

/-- What a pattern is read as. -/
inductive Reads : Bool → List Char → List Token → Prop
  | nil (fresh : Bool) : Reads fresh [] []
  | anyChar {fresh : Bool} {rest : List Char} {ts : List Token} (h : Reads false rest ts) :
      Reads fresh ('?' :: rest) (.anyChar :: ts)
  | deepLast : Reads true ['*', '*'] [.deep]
  | deep {rest : List Char} {ts : List Token} (h : Reads true rest ts) :
      Reads true ('*' :: '*' :: '/' :: rest) (.deep :: ts)
  | run {fresh : Bool} {rest : List Char} {ts : List Token} (hrest : rest.head? ≠ some '*')
      (h : Reads false rest ts) : Reads fresh ('*' :: rest) (.run :: ts)
  | ofClass {fresh : Bool} {rest after : List Char} {t : Token} {ts : List Token}
      (hclass : class? rest = some (t, after)) (h : Reads false after ts) :
      Reads fresh ('[' :: rest) (t :: ts)
  | char {fresh : Bool} {c : Char} {rest : List Char} {ts : List Token} (hc : c ∉ special)
      (h : Reads (c = '/') rest ts) : Reads fresh (c :: rest) (.char c :: ts)

variable {fresh : Bool} {cs rest : List Char} {ts us : List Token} {t : Token}

/-- A token in front of what is read goes in front of it. -/
theorem cons_eq_ok_iff {read : Except PatternError (List Token)} :
    (do pure (t :: (← read))) = Except.ok ts ↔ ∃ us, read = .ok us ∧ t :: us = ts := by
  cases read <;> simp [bind, Except.bind, pure, Except.pure]

theorem reads_of_tokens {position : ℕ} (h : tokens fresh position cs = .ok ts) :
    Reads fresh cs ts := by
  fun_induction tokens fresh position cs generalizing ts with
  | case1 fresh =>
    obtain rfl := Except.ok.inj h
    exact .nil fresh
  | case2 fresh position rest ih =>
    obtain ⟨us, hus, rfl⟩ := cons_eq_ok_iff.mp h
    exact .anyChar (ih hus)
  | case3 => exact nomatch h
  | case4 => exact nomatch h
  | case5 fresh position hfresh =>
    obtain rfl := Except.ok.inj h
    obtain rfl : fresh = true := by simpa using hfresh
    exact .deepLast
  | case6 fresh position hfresh after _ ih =>
    obtain ⟨us, hus, rfl⟩ := cons_eq_ok_iff.mp h
    obtain rfl : fresh = true := by simpa using hfresh
    exact .deep (ih hus)
  | case7 => exact nomatch h
  | case8 fresh position rest _ hrest ih =>
    obtain ⟨us, hus, rfl⟩ := cons_eq_ok_iff.mp h
    refine .run (fun hhead ↦ ?_) (ih hus)
    obtain ⟨more, hmore⟩ := List.head?_eq_some_iff.mp hhead
    exact hrest more hmore
  | case9 => exact nomatch h
  | case10 fresh position rest t after hclass _ ih =>
    obtain ⟨us, hus, rfl⟩ := cons_eq_ok_iff.mp h
    exact .ofClass hclass (ih hus)
  | case11 fresh position c rest hquestion _ _ hstar hbracket ih =>
    obtain ⟨us, hus, rfl⟩ := cons_eq_ok_iff.mp h
    refine .char ?_ (ih hus)
    simp only [special, List.mem_cons, List.not_mem_nil, or_false, not_or]
    exact ⟨hquestion, hstar, hbracket⟩

theorem Reads.tokens_eq {position : ℕ} (h : Reads fresh cs ts) :
    tokens fresh position cs = .ok ts := by
  induction h generalizing position with
  | nil => rw [tokens]
  | anyChar h ih => rw [tokens, cons_eq_ok_iff]; exact ⟨_, ih, rfl⟩
  | deepLast => simp [tokens]
  | deep h ih => simp [tokens, ih, bind, Except.bind, pure, Except.pure]
  | @run fresh rest ts hrest h ih =>
    have hstar : ∀ more, rest = '*' :: more → False := fun more hmore ↦ hrest (by rw [hmore]; rfl)
    rw [tokens, cons_eq_ok_iff]
    · exact ⟨_, ih, rfl⟩
    · exact fun more ↦ hstar _
    · exact hstar
  | ofClass hclass h ih =>
    rw [tokens]
    split
    · rename_i hnone
      exact absurd (hclass.symm.trans hnone) (Option.some_ne_none _)
    · rename_i t after hsome
      obtain ⟨rfl, rfl⟩ := Prod.mk.inj (Option.some.inj (hsome.symm.trans hclass))
      exact cons_eq_ok_iff.mpr ⟨_, ih, rfl⟩
  | @char fresh c rest ts hc h ih =>
    simp only [special, List.mem_cons, List.not_mem_nil, or_false, not_or] at hc
    rw [tokens, cons_eq_ok_iff]
    · exact ⟨_, ih, rfl⟩
    · exact hc.1
    · exact fun _ hstar _ ↦ hc.2.1 hstar
    · exact fun _ hstar _ ↦ hc.2.1 hstar
    · exact hc.2.1
    · exact hc.2.2

/-- Patterns are read as told, wherever they stand. -/
theorem tokens_eq_ok_iff {position : ℕ} : tokens fresh position cs = .ok ts ↔ Reads fresh cs ts :=
  ⟨reads_of_tokens, Reads.tokens_eq⟩

theorem classBody?_append {body after : List Char} (h : classBody? cs = some (body, after))
    (more : List Char) : classBody? (cs ++ more) = some (body, after ++ more) := by
  cases cs with
  | nil => exact nomatch h
  | cons c rest =>
    rw [classBody?] at h
    split at h
    · exact nomatch h
    · rename_i close left hdrop
      obtain ⟨rfl, rfl⟩ := Prod.mk.inj (Option.some.inj h)
      have hclose : (rest ++ more).dropWhile (· != ']') = close :: (left ++ more) := by
        rw [List.dropWhile_append, hdrop]
        rfl
      have hbody : (rest ++ more).takeWhile (· != ']') = rest.takeWhile (· != ']') := by
        have hsplit := List.takeWhile_append_dropWhile (p := (· != ']')) (l := rest)
        rw [hdrop] at hsplit
        have hlength := congrArg List.length hsplit
        rw [List.length_append, List.length_cons] at hlength
        rw [List.takeWhile_append, if_neg (by omega)]
      rw [List.cons_append, classBody?, hclose, hbody]

/-- A class ends where it ends, whatever comes behind it. -/
theorem class?_append {after : List Char} (h : class? cs = some (t, after)) (more : List Char) :
    class? (cs ++ more) = some (t, after ++ more) := by
  unfold class? at h
  split at h
  · obtain ⟨⟨body, left⟩, hbody, hmap⟩ := Option.map_eq_some_iff.mp h
    obtain ⟨rfl, rfl⟩ := Prod.mk.inj hmap
    rw [List.cons_append, class?, classBody?_append hbody]
    rfl
  · rename_i hnot
    obtain ⟨⟨body, left⟩, hbody, hmap⟩ := Option.map_eq_some_iff.mp h
    obtain ⟨rfl, rfl⟩ := Prod.mk.inj hmap
    rw [class?, classBody?_append hbody]
    · rfl
    · cases cs with
      | nil => exact nomatch hbody
      | cons c rest => exact fun behind hbehind ↦ hnot rest (by rw [(List.cons.inj hbehind).1])

/-- Two patterns with a slash between them are a pattern. -/
theorem Reads.append_slash (h : Reads fresh cs ts) (hrest : Reads true rest us) :
    ∃ vs, Reads fresh (cs ++ '/' :: rest) vs := by
  induction h with
  | nil fresh => exact ⟨_, .char (by decide) hrest⟩
  | anyChar h ih =>
    obtain ⟨vs, hvs⟩ := ih
    exact ⟨_, .anyChar hvs⟩
  | deepLast => exact ⟨_, .deep hrest⟩
  | deep h ih =>
    obtain ⟨vs, hvs⟩ := ih
    exact ⟨_, .deep hvs⟩
  | @run fresh behind ts hhead h ih =>
    obtain ⟨vs, hvs⟩ := ih
    refine ⟨_, .run ?_ hvs⟩
    cases behind with
    | nil => exact fun hslash ↦ absurd (Option.some.inj hslash) (by decide)
    | cons c behind => exact hhead
  | ofClass hclass h ih =>
    obtain ⟨vs, hvs⟩ := ih
    exact ⟨_, .ofClass (class?_append hclass _) hvs⟩
  | char hc h ih =>
    obtain ⟨vs, hvs⟩ := ih
    exact ⟨_, .char hc hvs⟩

/-- Patterns between slashes are a pattern as a whole. -/
theorem exists_reads_glue {parts : List (List Char)} (hne : parts ≠ [])
    (h : ∀ part ∈ parts, ∃ ts, Reads true part ts) : ∃ ts, Reads true (Text.glue '/' parts) ts := by
  induction parts with
  | nil => exact absurd rfl hne
  | cons part rest ih =>
    obtain ⟨⟨ts, hts⟩, hrest⟩ := List.forall_mem_cons.mp h
    cases rest with
    | nil =>
      rw [Text.glue_singleton]
      exact ⟨ts, hts⟩
    | cons next more =>
      obtain ⟨us, hus⟩ := ih (List.cons_ne_nil next more) hrest
      rw [Text.glue_cons_cons]
      exact hts.append_slash hus

end Reads

section Fits

variable {fresh : Bool} {cs ds : List Char} {ts : List Token}

/-- A star may stand for nothing. -/
theorem fits_run_of_fits (h : fits ts cs = true) : fits (.run :: ts) cs = true := by
  cases cs with
  | nil => rw [fits, h]
  | cons c rest => rw [fits, h, Bool.true_or]

/-- A star may stand for one character more. -/
theorem fits_run_cons {c : Char} (h : fits (.run :: ts) cs = true) :
    fits (.run :: ts) (c :: cs) = true := by
  rw [fits, h, Bool.or_true]

/-- A token for one character takes one. -/
theorem fits_cons {c : Char} {t : Token} (ht : t ≠ .run) :
    fits (t :: ts) (c :: cs) = (t.accepts c && fits ts cs) := by
  rw [fits]
  exact ht

/-- Text in which brackets do not open and no two stars stand in a row is a pattern that fits this
very text. -/
theorem exists_reads_fits (hbracket : '[' ∉ cs) (hstars : ¬['*', '*'] <:+: cs) (fresh : Bool) :
    ∃ ts, Reads fresh cs ts ∧ .deep ∉ ts ∧ fits ts cs = true := by
  induction cs generalizing fresh with
  | nil => exact ⟨[], .nil fresh, List.not_mem_nil, by rw [fits]; rfl⟩
  | cons c rest ih =>
    have hrest : ¬['*', '*'] <:+: rest := fun h ↦ hstars (h.trans (List.suffix_cons c rest).isInfix)
    obtain ⟨hc, hbracket⟩ := not_or.mp (mt List.mem_cons.mpr hbracket)
    by_cases hspecial : c ∈ special
    · obtain ⟨ts, hreads, hdeep, hfits⟩ := ih hbracket hrest false
      simp only [special, List.mem_cons, List.not_mem_nil, or_false] at hspecial
      rcases hspecial with rfl | rfl | rfl
      · refine ⟨_, .anyChar hreads, by simp [hdeep], ?_⟩
        rw [fits_cons Token.noConfusion, hfits]
        rfl
      · refine ⟨_, .run (fun hhead ↦ hstars ?_) hreads, by simp [hdeep], ?_⟩
        · obtain ⟨more, rfl⟩ := List.head?_eq_some_iff.mp hhead
          exact ⟨[], more, rfl⟩
        · exact fits_run_cons (fits_run_of_fits hfits)
      · exact absurd rfl hc
    · obtain ⟨ts, hreads, hdeep, hfits⟩ := ih hbracket hrest (c = '/')
      refine ⟨_, .char hspecial hreads, by simp [hdeep], ?_⟩
      rw [fits_cons Token.noConfusion, hfits, Token.accepts, Bool.and_true]
      exact decide_eq_true rfl

end Fits

section Components

variable {part : String} {parts : List String} {ts : List Token} {cs : List Component}

/-- Whether a part of a path, read as a pattern, is one that fits its own text. -/
def FitsItself (part : String) : Prop :=
  ∃ ts, tokens true 0 part.toList = .ok ts ∧ .deep ∉ ts ∧ fits ts part.toList = true

/-- Parts of a path that, read as patterns, stand for themselves. Two stars do so where they are the
name of a directory and another name comes next. -/
inductive MatchesItself : List String → Prop
  | nil : MatchesItself []
  | fit {part : String} {parts : List String} (hpart : FitsItself part) (h : MatchesItself parts) :
      MatchesItself (part :: parts)
  | deep {next : String} {parts : List String} (hnext : Path.IsName next)
      (h : MatchesItself (next :: parts)) : MatchesItself ("**" :: next :: parts)

theorem MatchesItself.of_fitsItself (h : ∀ part ∈ parts, FitsItself part) :
    MatchesItself parts := by
  induction parts with
  | nil => exact .nil
  | cons part rest ih =>
    obtain ⟨hpart, hrest⟩ := List.forall_mem_cons.mp h
    exact .fit hpart (ih hrest)

theorem fitsItself_of_not_mem (hbracket : '[' ∉ part.toList)
    (hstars : ¬['*', '*'] <:+: part.toList) : FitsItself part := by
  obtain ⟨ts, hreads, hdeep, hfits⟩ := exists_reads_fits hbracket hstars true
  exact ⟨ts, tokens_eq_ok_iff.mpr hreads, hdeep, hfits⟩

/-- Tokens that stand for themselves fit nothing but their text. -/
theorem eq_of_literal? {literal name : List Char} (h : literal? ts = some literal)
    (hfits : fits ts name = true) : name = literal := by
  induction ts generalizing literal name with
  | nil =>
    obtain rfl := Option.some.inj h
    rw [fits] at hfits
    exact List.isEmpty_iff.mp hfits
  | cons t ts ih =>
    cases t with
    | char c =>
      obtain ⟨behind, hbehind, rfl⟩ := Option.map_eq_some_iff.mp h
      cases name with
      | nil => exact absurd hfits (by rw [fits]; exact Bool.false_ne_true; exact Token.noConfusion)
      | cons d name =>
        rw [fits_cons Token.noConfusion, Token.accepts, Bool.and_eq_true] at hfits
        rw [of_decide_eq_true hfits.1, ih hbehind hfits.2]
    | _ => cases h

/-- Text in which every character stands for itself is read so. -/
theorem Reads.literal?_eq {fresh : Bool} {text : List Char} (h : Reads fresh text ts)
    (htext : ∀ c ∈ text, c ∉ special) : literal? ts = some text := by
  induction h with
  | nil => rfl
  | char hc h ih =>
    rw [literal?, ih fun c hc ↦ htext c (List.mem_cons_of_mem _ hc)]
    rfl
  | _ => exact absurd (by decide) (htext _ List.mem_cons_self)

/-- A part that fits itself becomes a component that takes it for what it is. -/
theorem Follows.ofTokens (hslash : '/' ∉ part.toList) (htokens : tokens true 0 part.toList = .ok ts)
    (hdeep : .deep ∉ ts) (hfits : fits ts part.toList = true) (h : Follows parts cs) :
    Follows (part :: parts) (Component.ofTokens ts :: cs) := by
  have hnot : ts.contains .deep = false := by
    rw [List.contains_eq_mem]
    exact decide_eq_false hdeep
  rw [Component.ofTokens, hnot, if_neg Bool.false_ne_true]
  cases hliteral : literal? ts with
  | some text =>
    have htext : String.ofList text = part := by
      rw [← eq_of_literal? hliteral hfits, String.ofList_toList]
    subst htext
    exact .literal h
  | none =>
    have hname (other : String) (hother : ∀ c ∈ other.toList, c ∉ special) : part ≠ other := by
      rintro rfl
      exact nomatch hliteral.symm.trans ((tokens_eq_ok_iff.mp htokens).literal?_eq hother)
    have hpart : Path.IsName part := ⟨hslash, hname "" (by simp), hname "." (by simp [special]),
      hname ".." (by simp [special])⟩
    exact .fitting hpart hfits h

theorem isName_stars : Path.IsName "**" :=
  ⟨by decide, by decide, by decide, by decide⟩

theorem tokens_stars : tokens true 0 "**".toList = .ok [.deep] :=
  tokens_eq_ok_iff.mpr .deepLast

/-- Parts that match themselves become components that take them for what they are. -/
theorem MatchesItself.follows (h : MatchesItself parts)
    (hslash : ∀ part ∈ parts, '/' ∉ part.toList) :
    ∃ cs, (parts.map String.toList).mapM
      (fun part ↦ (tokens true 0 part).map Component.ofTokens) = .ok cs ∧ Follows parts cs := by
  induction h with
  | nil => exact ⟨[], rfl, .nil⟩
  | fit hpart h ih =>
    obtain ⟨hslash, hslashes⟩ := List.forall_mem_cons.mp hslash
    obtain ⟨cs, hcs, hfollows⟩ := ih hslashes
    obtain ⟨ts, htokens, hdeep, hfits⟩ := hpart
    refine ⟨Component.ofTokens ts :: cs, ?_, hfollows.ofTokens hslash htokens hdeep hfits⟩
    rw [List.map_cons, List.mapM_cons, htokens, hcs]
    rfl
  | deep hnext h ih =>
    obtain ⟨cs, hcs, hfollows⟩ := ih (List.forall_mem_cons.mp hslash).2
    refine ⟨.deep :: cs, ?_, .deep isName_stars hnext hfollows⟩
    rw [List.map_cons, List.mapM_cons, tokens_stars, hcs]
    rfl

theorem MatchesItself.tail (h : MatchesItself parts) : MatchesItself parts.tail := by
  cases h with
  | nil => exact .nil
  | fit hpart h => exact h
  | deep hnext h => exact h

theorem MatchesItself.exists_tokens (h : MatchesItself parts) :
    ∀ part ∈ parts, ∃ ts, Reads true part.toList ts := by
  induction h with
  | nil => exact fun part hpart ↦ absurd hpart List.not_mem_nil
  | fit hpart h ih =>
    obtain ⟨ts, htokens, -, -⟩ := hpart
    exact List.forall_mem_cons.mpr ⟨⟨ts, tokens_eq_ok_iff.mp htokens⟩, ih⟩
  | deep hnext h ih => exact List.forall_mem_cons.mpr ⟨⟨_, .deepLast⟩, ih⟩

end Components

section Parse

variable {path : String}

theorem componentsOf_toList (hne : path ≠ "") (hend : Path.endsWithSlash path = false) :
    componentsOf path.toList = (Path.parts path).map String.toList := by
  have hlast : (Text.pieces '/' path.toList).getLast? ≠ some [] := by
    intro h
    rcases Text.eq_nil_or_getLast?_of_pieces h with hnil | hslash
    · exact hne (String.toList_eq_nil_iff.mp hnil)
    · rw [Path.endsWithSlash, decide_eq_false_iff_not] at hend
      exact hend hslash
  have htexts : String.toList ∘ String.ofList = id := funext fun _ ↦ String.toList_ofList
  rw [componentsOf, if_neg hlast, Path.parts, List.map_map, htexts, List.map_id]

theorem parse_eq_ok {whole : List Token} {cs : List Component}
    (hwhole : tokens true 0 path.toList = .ok whole)
    (htail : (Path.isAbsolute path && path.toList.tail.isEmpty) = false)
    (hcs : (componentsOf (if Path.isAbsolute path then path.toList.tail else path.toList)).mapM
      (fun part ↦ (tokens true 0 part).map Component.ofTokens) = .ok cs) :
    Pattern.parse path = .ok ⟨Path.isAbsolute path, cs, Path.endsWithSlash path⟩ := by
  simp only [Pattern.parse, hwhole, hcs, htail, bind, Except.bind]
  rfl

/-- A pattern without slashes has one component. -/
theorem parse_of_not_mem {ts : List Token} (hne : path ≠ "") (hslash : '/' ∉ path.toList)
    (htokens : tokens true 0 path.toList = .ok ts) :
    Pattern.parse path = .ok ⟨false, [Component.ofTokens ts], false⟩ := by
  have habsolute := Path.isAbsolute_of_not_mem hslash
  have hend := Path.endsWithSlash_of_not_mem hslash
  rw [parse_eq_ok htokens (by rw [habsolute, Bool.false_and]), habsolute, hend]
  rw [habsolute, if_neg Bool.false_ne_true, componentsOf_toList hne hend,
    Path.parts_of_not_mem hslash, List.map_singleton, List.mapM_cons, htokens]
  rfl

/-- A path whose parts match themselves is read as components that take the parts for what they are;
the first part of an absolute path is the root. -/
theorem MatchesItself.parse (h : MatchesItself (Path.parts path)) (hne : path ≠ "")
    (hend : Path.endsWithSlash path = false) :
    ∃ cs, Pattern.parse path = .ok ⟨Path.isAbsolute path, cs, false⟩ ∧
      Follows (if Path.isAbsolute path then (Path.parts path).tail else Path.parts path) cs := by
  have hslash := Path.slash_not_mem_of_mem_parts path
  obtain ⟨whole, hwhole⟩ : ∃ ts, Reads true path.toList ts := by
    rw [← @Text.glue_pieces '/' path.toList]
    refine exists_reads_glue (Text.pieces_ne_nil _) fun piece hpiece ↦ ?_
    obtain ⟨ts, hts⟩ := h.exists_tokens _ (List.mem_map_of_mem hpiece)
    rw [String.toList_ofList] at hts
    exact ⟨ts, hts⟩
  have htokens : tokens true 0 path.toList = .ok whole := tokens_eq_ok_iff.mpr hwhole
  rw [← hend]
  cases habsolute : Path.isAbsolute path with
  | false =>
    obtain ⟨cs, hcs, hfollows⟩ := h.follows hslash
    refine ⟨cs, habsolute ▸ parse_eq_ok htokens (by rw [habsolute]; rfl) ?_, hfollows⟩
    rw [habsolute, if_neg Bool.false_ne_true, componentsOf_toList hne hend]
    exact hcs
  | true =>
    obtain ⟨below, hpath, hparts⟩ := Path.exists_of_isAbsolute habsolute
    rw [hparts] at h hslash
    have hbelow : below ≠ "" := by
      rintro rfl
      rw [hpath] at hend
      exact absurd hend (by decide)
    have hlast : Path.endsWithSlash below = false := by
      rw [← Path.endsWithSlash_append "/" hbelow, ← hpath, hend]
    obtain ⟨cs, hcs, hfollows⟩ := h.tail.follows (List.forall_mem_cons.mp hslash).2
    rw [List.tail_cons, ← componentsOf_toList hbelow hlast] at hcs
    have htail : path.toList.tail = below.toList := by
      rw [hpath, String.toList_append]
      rfl
    refine ⟨cs, habsolute ▸ parse_eq_ok htokens ?_ ?_, ?_⟩
    · rw [htail, habsolute, List.isEmpty_eq_false_iff.mpr (mt String.toList_eq_nil_iff.mp hbelow)]
      rfl
    · rw [habsolute, if_pos rfl, htail]
      exact hcs
    · rw [if_pos rfl, hparts]
      exact hfollows

end Parse

end FenceLint.Glob
