import FormScript.Completion
import FormScript.Proofs.ByteOrder
import FormScript.Proofs.Tokenization
import FormScript.Proofs.Values

/-!
# Completing a name

A completion replaces the atom that ends at the cursor. `Completion.find` finds this atom
whenever there is one, and offers the names that begin with it: the bound and the
reserved ones, each once and in the order of their bytes.

Whatever name is taken, the text before the atom is read as it was and the name is read
as one atom that spells its symbol (`Completion.find_exact`). For the text this is a
matter of its pieces: the last word of a text can be exchanged for any other word
(`Token.Layout.exchange_last`). That every name on offer is such a word is what sessions
guarantee of the names they bind.
-/

namespace FormScript

/-! ## The last word of a text -/

namespace Token

/-- A text that ends in an atom can end in any other word instead. Only the last token is
another one then, and it starts where the first one did. -/
theorem Layout.exchange_last {read rest : List Char} {tokens : List Token} {token : Token}
    (layout : Layout read rest tokens) (last : tokens.getLast? = some token)
    (isAtom : token.kind = .atom) (ends : token.span.stop = byteLength (read ++ rest)) :
    ∃ front word, rest = front ++ word ∧ IsWord word ∧
      token = atomAt (placeAfter (read ++ front)) word ∧
      ∀ other, IsWord other → Layout read (front ++ other)
        (tokens.dropLast ++ [atomAt (placeAfter (read ++ front)) other]) := by
  -- a piece that is not the last one stays in front of what the rest is exchanged for
  induction layout with
  | done | lastComment => cases last
  | @blank read rest c tokens isBlank _ ih =>
    obtain ⟨front, word, rfl, isWord, same, exchanged⟩ := ih last (by simpa using ends)
    refine ⟨c :: front, word, rfl, isWord, by simpa using same, fun other isOther => ?_⟩
    exact .blank isBlank (by simpa using exchanged other isOther)
  | @comment read body rest tokens noFeed _ ih =>
    obtain ⟨front, word, rfl, isWord, same, exchanged⟩ := ih last (by simpa using ends)
    refine ⟨';' :: body ++ '\n' :: front, word, by simp, isWord, by simpa using same,
      fun other isOther => ?_⟩
    have later := Layout.comment noFeed (exchanged other isOther)
    simpa using later
  | @paren read rest kind c tokens isParen _ ih =>
    cases tokens with
    | nil =>
      obtain rfl := Option.some.inj last
      exact absurd isAtom isParen.kind_iff.2.2
    | cons next tokens =>
      rw [List.getLast?_cons_cons] at last
      obtain ⟨front, word, rfl, isWord, same, exchanged⟩ := ih last (by simpa using ends)
      refine ⟨c :: front, word, rfl, isWord, by simpa using same, fun other isOther => ?_⟩
      exact .paren isParen (by simpa using exchanged other isOther)
  | @word read word rest tokens isWord delimited _ ih =>
    cases tokens with
    | nil =>
      rw [List.getLast?_singleton] at last
      obtain rfl := Option.some.inj last
      rw [(covers_atomAt read isWord.nonempty).stop, byteLength_append, byteLength_append] at ends
      obtain rfl : rest = [] := eq_nil_of_byteLength (by omega)
      refine ⟨[], word, by simp, isWord, by simp, fun other isOther => ?_⟩
      have only : Layout read (other ++ []) [atomAt (placeAfter read) other] :=
        .word isOther (by simp) .done
      simpa using only
    | cons next tokens =>
      rw [List.getLast?_cons_cons] at last
      obtain ⟨front, final, rfl, isFinal, same, exchanged⟩ := ih last (by simpa using ends)
      cases front with
      | nil =>
        -- two words do not touch
        obtain ⟨c, letters, rfl⟩ := List.exists_cons_of_ne_nil isFinal.nonempty
        exact absurd (delimited c rfl) (isFinal.free c List.mem_cons_self)
      | cons c front =>
        refine ⟨word ++ c :: front, final, by simp, isFinal, by simpa using same,
          fun other isOther => ?_⟩
        have ahead : ∀ x ∈ (c :: front ++ other).head?, x ∈ delimiters := delimited
        have later := Layout.word isWord ahead (exchanged other isOther)
        simpa using later

theorem scan_of_layout {text : List Char} {tokens : List Token} (layout : Layout [] text tokens) :
    scan (String.ofList text) = tokens := by
  have scanned := layout_scan (String.ofList text)
  rw [String.toList_ofList] at scanned
  exact scanned.tokenization.unique layout.tokenization

/-- The text ends in this atom: it is the last token and reaches up to the end. -/
structure EndsText (text : List Char) (token : Token) : Prop where
  last : (scan (String.ofList text)).getLast? = some token
  isAtom : token.kind = .atom
  stop : token.span.stop = byteLength text

/-- The atom in which a text ends is made of the last characters of the text. Any other word
in their place is scanned as the last token, after the same tokens as before. -/
theorem EndsText.exchange {text : List Char} {token : Token} (atEnd : token.EndsText text) :
    ∃ front, text = front ++ token.text.toList ∧ token.span.start = byteLength front ∧
      ∀ other, IsWord other.toList → scan (String.ofList (front ++ other.toList)) =
        (scan (String.ofList text)).dropLast ++
          [{ kind := .atom, text := other, line := token.line,
             span := { start := token.span.start,
                       stop := token.span.start + byteLength other.toList } }] := by
  have layout := layout_scan (String.ofList text)
  rw [String.toList_ofList] at layout
  obtain ⟨front, word, rfl, isWord, rfl, exchanged⟩ :=
    layout.exchange_last atEnd.last atEnd.isAtom atEnd.stop
  have covers := covers_atomAt front isWord.nonempty
  refine ⟨front, by simp [covers.text], covers.start, fun other isOther => ?_⟩
  rw [scan_of_layout (exchanged other.toList isOther)]
  simp [atomAt, Cursor.advanceAll_eq]

end Token

/-! ## The names on offer -/

theorem isReserved_iff {name : String} :
    isReserved name = true ↔ name ∈ Keyword.all.map Keyword.name := by
  simp [isReserved, Keyword.ofName?]

theorem Env.mem_names {env : Env} {name : String} :
    name ∈ env.names ↔ env.contains name = true := by
  rw [names, Std.ExtTreeMap.mem_keys]
  exact Std.ExtTreeMap.mem_iff_isSome_getElem?

/-- A reserved name is a word that spells its own symbol. -/
theorem Keyword.isName (k : Keyword) : Expr.IsName k.name := by
  cases k with
  | define | begin | choose => exact ⟨.of_letters rfl, rfl⟩
  | operator op => cases op <;> exact ⟨.of_letters rfl, rfl⟩

namespace Completion

theorem mem_namesFrom {env : Env} {beginning name : String} :
    name ∈ namesFrom env beginning ↔
      (env.contains name = true ∨ isReserved name = true) ∧
        beginning.toList <+: name.toList := by
  rw [namesFrom, Std.ExtTreeSet.mem_toList, Std.ExtTreeSet.mem_ofList, List.contains_iff_mem,
    List.mem_filter, List.mem_append, Env.mem_names, isReserved_iff, List.isPrefixOf_iff_prefix]

theorem namesFrom_ascending (env : Env) (beginning : String) :
    (namesFrom env beginning).Pairwise fun a b => utf8 a < utf8 b := by
  refine Std.ExtTreeSet.ordered_toList.imp fun {a b} before => ?_
  exact utf8_lt_of_lt (compareOfLessAndEq_eq_lt.mp before)

/-- In a sound environment all names on offer are words that spell their symbols. -/
theorem isName_of_mem_namesFrom {env : Env} (sound : env.Sound) {beginning name : String}
    (offered : name ∈ namesFrom env beginning) : Expr.IsName name := by
  rcases (mem_namesFrom.mp offered).1 with bound | reserved
  · obtain ⟨value, found⟩ := Option.isSome_iff_exists.mp bound
    exact sound.named name value found
  · obtain ⟨k, rfl⟩ := exists_keyword reserved
    exact k.isName

/-! ## What is found -/

theorem find_of_endsText (env : Env) {before : List Char} (after : List Char) {token : Token}
    (atEnd : token.EndsText before) :
    find env (String.ofList (before ++ after)) (byteLength before) =
      { start := token.span.start, candidates := namesFrom env token.text } := by
  have last := atEnd.last
  rw [Token.scan, String.toList_ofList] at last
  -- the text of the atom is what stands between its start and the cursor
  obtain ⟨front, cut, start, -⟩ := atEnd.exchange
  have back : byteLength before - byteLength token.text.toList = token.span.start := by
    have size := congrArg byteLength cut
    rw [byteLength_append] at size
    omega
  simp only [find, String.toList_ofList, takeBytes_byteLength_append, last, back]
  exact if_pos ⟨atEnd.isAtom, atEnd.stop⟩

theorem find_of_no_atom (env : Env) {before : List Char} (after : List Char)
    (absent : ∀ token, ¬ Token.EndsText before token) :
    find env (String.ofList (before ++ after)) (byteLength before) =
      { start := byteLength before, candidates := [] } := by
  simp only [find, String.toList_ofList, takeBytes_byteLength_append]
  split
  · next token last =>
    have scanned : (Token.scan (String.ofList before)).getLast? = some token := by
      rwa [Token.scan, String.toList_ofList]
    exact if_neg fun ⟨isAtom, stop⟩ => absent token ⟨scanned, isAtom, stop⟩
  · rfl

/-- A completion at the end of `before` is empty unless an atom ends there. Otherwise it
starts where this atom does and offers, in ascending order of their bytes, just the bound
and the reserved names that begin with the text from there to the cursor. Each of them, put
in the place of this text, is scanned as an atom on the same line, with all tokens before
it unchanged, and spells its own symbol. -/
theorem find_exact (ops : List Session.Operation) (before after : List Char) :
    let env := (Session.fresh.performAll ops).session.env
    let tokens := Token.scan (String.ofList before)
    let found := find env (String.ofList (before ++ after)) (byteLength before)
    ((∀ token, ¬ Token.EndsText before token) →
      found = { start := byteLength before, candidates := [] }) ∧
    ∀ token, Token.EndsText before token →
      found.start = token.span.start ∧
      found.candidates.Pairwise (fun a b => utf8 a < utf8 b) ∧
      ∃ front word, before = front ++ word ∧ byteLength front = found.start ∧
        (∀ name, name ∈ found.candidates ↔
          (env.contains name = true ∨ isReserved name = true) ∧ word <+: name.toList) ∧
        ∀ name ∈ found.candidates,
          Token.scan (String.ofList (front ++ name.toList)) =
            tokens.dropLast ++
              [{ kind := .atom, text := name, line := token.line,
                 span := { start := found.start,
                           stop := found.start + byteLength name.toList } }] ∧
          Expr.ofAtom? name = some (.symbol name) := by
  intro env tokens found
  have sound : env.Sound := (Session.performAll_sound Session.fresh_sound ops).1.env
  refine ⟨find_of_no_atom env after, fun token atEnd => ?_⟩
  have offer : found = { start := token.span.start, candidates := namesFrom env token.text } :=
    find_of_endsText env after atEnd
  obtain ⟨front, cut, start, exchanged⟩ := atEnd.exchange
  rw [offer]
  refine ⟨rfl, namesFrom_ascending env token.text, front, token.text.toList, cut, start.symm,
    fun _ => mem_namesFrom, fun name offered => ?_⟩
  have isName := isName_of_mem_namesFrom sound offered
  exact ⟨exchanged name isName.word, isName.spells⟩

example : find .initial "(é b) x" 5 = { start := 4, candidates := ["begin"] } := by
  decide

end Completion

end FormScript
