import Mutgos.Text.MarkupPieces

/-!
# URLs in markup

The markup that is written for a URL has its name and its type as well, three
parameters.  The parser allows for three, and `split_string` gives up as soon as there
are as many as that, so that no URL with a name is read back.

## Main results

* `toExternal_fromExternal_url_ne` — **no URL with a name is read back from its markup.**
-/

namespace Mutgos.Text

open ParserStateMachine List

/-- What none of the texts around a URL and in it has. -/
def IsPlain (text : ByteString) : Prop :=
  ∀ c ∈ text, c ≠ 91 ∧ c ≠ 93 ∧ c ≠ 124 ∧ c ≠ 126 ∧ c ≠ 96

instance (text : ByteString) : Decidable (IsPlain text) :=
  inferInstanceAs (Decidable (∀ c ∈ text, _))

/-- Three parameters are none. -/
theorem urlParams_three {inner a b c q : ByteString}
    (hinner : inner = a ++ (urlSep ++ (b ++ (urlSep ++ c)))) (ha : 124 ∉ a) (hb : 124 ∉ b)
    (hc : 124 ∉ c) (hq : 124 ∉ q) (hne : c ≠ []) :
    urlParams (openUrl ++ (inner ++ (closeUrl ++ q))) (openUrl.length + inner.length) = [] := by
  have hlast : (124 : UInt8) ∉ c ++ (closeUrl ++ q) := by
    rw [mem_append, mem_append, not_or, not_or]
    exact ⟨hc, by decide, hq⟩
  have hmin : min inner.length (inner ++ (closeUrl ++ q)).length = inner.length := by
    rw [length_append]
    omega
  have hpos : ¬(inner ++ (closeUrl ++ q) = [] ∨ inner.length = 0) := by
    simp [hinner, urlSep, ascii]
  rw [urlParams, drop_left, Nat.add_sub_cancel_left, splitString, dif_neg (by decide),
    if_neg hpos, hmin]
  have h₁ := @splitPieces_append 124 [124] maxUrlParams true [] a
    (b ++ (urlSep ++ (c ++ (closeUrl ++ q)))) (b.length + (urlSep.length + c.length)) ha
    (.inr (by decide))
  have h₂ := @splitPieces_append 124 [124] maxUrlParams true ([] ++ [trimCopy a]) b
    (c ++ (closeUrl ++ q)) c.length hb (.inr (by simp [maxUrlParams]))
  have h₃ := (h₁.trans h₂).trans (splitPieces_maximum hlast hne rfl)
  rw [hinner]
  simp only [append_assoc, length_append]
  exact h₃

/-- What is between the brackets of a URL that has a name. -/
def urlInner (urlType : UrlType) (urlText urlName : ByteString) : ByteString :=
  (urlText ++ ascii " ") ++ (urlSep ++ ((ascii " " ++ urlName ++ ascii " ") ++
    (urlSep ++ (ascii " " ++ urlTypeToString urlType))))

theorem isPlain_urlTypeToString (urlType : UrlType) : IsPlain (urlTypeToString urlType) := by
  cases urlType <;> decide +kernel

/-- There are separators between the brackets, and no token. -/
theorem mem_urlInner {urlType : UrlType} {urlText urlName : ByteString} (hurl : IsPlain urlText)
    (hname : IsPlain urlName) :
    ∀ c ∈ urlInner urlType urlText urlName, c ≠ 91 ∧ c ≠ 93 ∧ c ≠ 126 := by
  have hplain : ∀ {w : ByteString}, IsPlain w → ∀ c ∈ w, c ≠ 91 ∧ c ≠ 93 ∧ c ≠ 126 :=
    fun hw c hc => ⟨(hw c hc).1, (hw c hc).2.1, (hw c hc).2.2.2.1⟩
  have hsep : ∀ c ∈ urlSep, c ≠ 91 ∧ c ≠ 93 ∧ c ≠ 126 := by decide +kernel
  have hspace : ∀ c ∈ ascii " ", c ≠ 91 ∧ c ≠ 93 ∧ c ≠ 126 := by decide +kernel
  simp only [urlInner, forall_mem_append]
  exact ⟨⟨hplain hurl, hspace⟩, hsep, ⟨⟨hspace, hplain hname⟩, hspace⟩, hsep, hspace,
    hplain (isPlain_urlTypeToString urlType)⟩

/-- There are two bytes at least. -/
theorem exists_urlInner_cons (urlType : UrlType) {urlText : ByteString} (urlName : ByteString)
    (hne : urlText ≠ []) :
    ∃ c d rest, urlInner urlType urlText urlName = c :: d :: rest := by
  obtain ⟨c, u, rfl⟩ := exists_cons_of_ne_nil hne
  obtain ⟨d, rest, hrest⟩ := exists_cons_of_ne_nil (show u ++ ascii " " ≠ [] by simp [ascii])
  rw [urlInner, cons_append, hrest]
  exact ⟨c, d, _, rfl⟩

/-- The brackets of a URL with a name are lost. -/
theorem dropsBrackets_url {urlType : UrlType} {urlText urlName q : ByteString}
    (hurl : IsPlain urlText) (hname : IsPlain urlName) (hne : urlText ≠ []) (hq : IsPlain q) :
    dropsBrackets (openUrl ++ (urlInner urlType urlText urlName ++ (closeUrl ++ q))) = true := by
  have hinner := @mem_urlInner urlType urlText urlName hurl hname
  have hbar : ∀ {w : ByteString}, IsPlain w → (124 : UInt8) ∉ w := by
    intro w hw hmem
    exact (hw 124 hmem).2.2.1 rfl
  have hspace : (124 : UInt8) ∉ ascii " " := by decide
  have hparams : urlParams (openUrl ++ (urlInner urlType urlText urlName ++ (closeUrl ++ q)))
      (openUrl.length + (urlInner urlType urlText urlName).length) = [] :=
    urlParams_three rfl (by simp [hbar hurl, hspace]) (by simp [hbar hname, hspace])
      (by simp [hbar (isPlain_urlTypeToString urlType), hspace]) (hbar hq) (by simp [ascii])
  have hfind : find closeUrl (openUrl ++ (urlInner urlType urlText urlName ++ (closeUrl ++ q))) =
      some (openUrl.length + (urlInner urlType urlText urlName).length) := by
    have hmem : (93 : UInt8) ∉ openUrl ++ urlInner urlType urlText urlName := by
      rw [mem_append, not_or]
      exact ⟨by decide, fun hmem => (hinner 93 hmem).2.1 rfl⟩
    rw [← append_assoc]
    refine (find_append_of_not_mem hmem _).trans ?_
    change Option.map _ (find closeUrl (closeUrl ++ q)) = _
    rw [find_append, Option.map_some, Nat.zero_add, length_append]
  obtain ⟨c, d, rest, hcons⟩ := exists_urlInner_cons urlType urlName hne
  have hc := (hinner c (by simp [hcons])).1
  have hd := (hinner d (by simp [hcons])).1
  have hclose : closeUrl.length = 2 := rfl
  have hshortcut : isUrlShortcut (openUrl ++ (urlInner urlType urlText urlName ++
      (closeUrl ++ q))) = false := by
    rw [hcons]
    simp [isUrlShortcut, openUrl_eq, openUrlLit, hd]
    omega
  have htripled : isTripled (openUrl ++ (urlInner urlType urlText urlName ++ (closeUrl ++ q)))
      (openUrl.length + (urlInner urlType urlText urlName).length) = false := by
    rw [hcons]
    simp [isTripled, openUrl_eq, openUrlLit, hc]
  simp [dropsBrackets, hfind, hshortcut, htripled, hparams, urlOf]

/-- **What is read instead of a URL with a name**: a plain text, its brackets gone. -/
theorem toExternal_fromExternal_url (idToString : DbTypes.Id → ByteString) {p q : ByteString}
    {urlType : UrlType} {urlText urlName : ByteString} (hp : IsPlain p) (hq : IsPlain q)
    (hurl : IsPlain urlText) (hname : IsPlain urlName) (hurl_ne : urlText ≠ [])
    (hname_ne : urlName ≠ []) :
    toExternal (fromExternal idToString [.plainText p, .url urlType urlText urlName,
      .plainText q]) =
      [.plainText (p ++ (urlInner urlType urlText urlName ++ (closeUrl ++ q)))] := by
  have htext : fromExternal idToString [.plainText p, .url urlType urlText urlName,
      .plainText q] = p ++ (openUrl ++ (urlInner urlType urlText urlName ++ (closeUrl ++ q))) := by
    simp [fromExternal, fromExternalItem, hname_ne, urlInner]
  have hdrops := @dropsBrackets_url urlType urlText urlName q hurl hname hurl_ne hq
  have hfree : ∀ {w : ByteString}, IsPlain w → ∀ c ∈ w, c ≠ 126 ∧ c ≠ 91 :=
    fun hw c hc => ⟨(hw c hc).2.2.2.1, (hw c hc).1⟩
  have hrest : ∀ c ∈ urlInner urlType urlText urlName ++ (closeUrl ++ q), c ≠ 126 ∧ c ≠ 91 := by
    simp only [forall_mem_append]
    refine ⟨?_, by decide +kernel, hfree hq⟩
    intro c hc
    obtain ⟨hopen, -, htilde⟩ := mem_urlInner hurl hname c hc
    exact ⟨htilde, hopen⟩
  generalize hX : urlInner urlType urlText urlName ++ (closeUrl ++ q) = X at *
  -- The text before the URL, the URL, and the text after its brackets.
  have h₁ := (at_new (p ++ (openUrl ++ X))).outputSubstring p.length
  rw [take_left, drop_left] at h₁
  have h₂ := h₁.convertUrl_of_dropsBrackets hdrops
  rw [drop_left, ← drop_drop, drop_left] at h₂
  have h₃ := h₂.outputSubstring (X.drop openUrl.length).length
  rw [take_length, drop_length] at h₃
  have hopen : openUrl <+: ((new (p ++ (openUrl ++ X))).outputSubstring p.length).rest :=
    ⟨X, by rw [h₁.rest]⟩
  have hne : p ++ X ≠ [] := by
    rw [← hX]
    simp [closeUrl, ascii]
  rw [htext, toExternal, loop_append rfl (hfree hp), loop_openUrl hopen,
    @loop_append _ (X.drop openUrl.length) [] (by rw [h₂.rest, append_nil])
      (fun c hc => hrest c (mem_of_mem_drop hc)), h₃.loop_nil.2, TextSegment.append_append,
    TextSegment.append_append, take_append_drop, nil_append,
    TextSegment.flush_of_ne_nil (by simpa using hne)]
  rfl

/-- **No URL with a name is read back from its markup**, whatever the text around it. -/
theorem toExternal_fromExternal_url_ne (idToString : DbTypes.Id → ByteString) {p q : ByteString}
    {urlType : UrlType} {urlText urlName : ByteString} (hp : IsPlain p) (hq : IsPlain q)
    (hurl : IsPlain urlText) (hname : IsPlain urlName) (hurl_ne : urlText ≠ [])
    (hname_ne : urlName ≠ []) :
    let line : ExternalTextLine := [.plainText p, .url urlType urlText urlName, .plainText q]
    toExternal (fromExternal idToString line) ≠ line ∧
      ∀ type text name, .url type text name ∉ toExternal (fromExternal idToString line) := by
  intro line
  rw [toExternal_fromExternal_url idToString hp hq hurl hname hurl_ne hname_ne]
  exact ⟨by simp [line], by simp⟩

/-- A page with a name, between two words. -/
theorem toExternal_fromExternal_url_page :
    let line : ExternalTextLine :=
      [.plainText (ascii "see "), .url .page (ascii "u") (ascii "n"), .plainText (ascii ".")]
    toExternal (fromExternal (fun _ => []) line) ≠ line :=
  (toExternal_fromExternal_url_ne (fun _ => []) (by decide +kernel) (by decide +kernel) (by decide +kernel)
    (by decide +kernel) (by decide) (by decide)).1

/-- The brackets are gone, and so is the URL. -/
theorem toExternal_fromExternal_url_broken :
    let line : ExternalTextLine :=
      [.plainText (ascii "see "), .url .page (ascii "u") (ascii "n"), .plainText (ascii ".")]
    toExternal (fromExternal (fun _ => []) line) =
      [.plainText (ascii "see u || n || page]].")] ∧
      toExternal (fromExternal (fun _ => []) line) ≠ line := by
  decide +kernel

end Mutgos.Text
