import ParenLambda.Proofs.CanonicalNames
import ParenLambda.Proofs.Layout

/-!
# Respelling a source

The tokens of a source can be spelled again, with one space between any two. Scanning undoes it, as long
as every atom has a plain name: a name that is canonical already is one run of characters, and scanning
leaves it alone. A space behind an introducer is what makes it one, and so is the end of the text.

The atoms of a source have such names (`ParenLambda.Token.plain_of_mem_ofSource`), since canonical names
are fixed. There is one exception: in front of a blank outside ASCII the words `let` and `lambda` are
atoms, and in front of a space they are not. Without these two atoms a source can be **stripped** of its
comments, its layout and its spellings of names, and nothing that a backend does depends on them.

With these two the names of atoms are all the names that are canonical already, but for the letter `λ`
(`ParenLambda.Token.exists_mem_ofSource`).
-/

namespace ParenLambda

namespace Token

/-- **The tokens of a source**, without their places. -/
def ofSource (source : String) : List Token :=
  (scan source).map Lexeme.token

/-- **A source stripped** to its tokens: these are spelled again, with a space between any two. -/
def strip (source : String) : String :=
  respell (ofSource source)

/-! ### Scanning a respelled text -/

/-- A token spelled at the end of a text, or in front of a space, is that token. -/
theorem ofText_spelling {token : Token} (h : ∀ name, token = .atom name → Name.Plain name)
    {rest : List Char} (hrest : ∀ c, rest.head? = some c → c = ' ') :
    ofText (token.spelling.toList ++ rest) = token :: ofText rest := by
  cases token with
  | opening => exact ofText_opening rest
  | closing => exact ofText_closing rest
  | introducer kind =>
    cases rest with
    | nil => cases kind <;> rfl
    | cons c rest =>
      obtain rfl : c = ' ' := hrest c rfl
      rw [ofText_space]
      exact ofText_introducer kind rest
  | atom name =>
    have hbroken : Fragment.Broken rest := by
      intro c hc
      rw [hrest c hc]
      decide
    exact ofText_name (h name rfl) hbroken

theorem toList_respell_cons_cons (token next : Token) (rest : List Token) :
    (respell (token :: next :: rest)).toList =
      token.spelling.toList ++ ' ' :: (respell (next :: rest)).toList := by
  simp only [respell, List.map_cons]
  rw [String.intercalate_cons_cons]
  simp

/-- **Scanning undoes respelling**, if the names of all atoms are plain. By induction on the tokens: each
of them but the last one has a space behind it. -/
theorem ofSource_respell {tokens : List Token}
    (h : ∀ name, .atom name ∈ tokens → Name.Plain name) : ofSource (respell tokens) = tokens := by
  change ofText (respell tokens).toList = tokens
  induction tokens with
  | nil => rfl
  | cons token rest ih =>
    have htoken : ∀ name, token = .atom name → Name.Plain name := by
      rintro name rfl
      exact h name List.mem_cons_self
    cases rest with
    | nil =>
      have hlast : ofText (token.spelling.toList ++ []) = token :: ofText [] :=
        ofText_spelling htoken (by rintro c ⟨⟩)
      have hchars : (respell [token]).toList = token.spelling.toList ++ [] := by
        rw [List.append_nil, respell, List.map_singleton, String.intercalate_singleton]
      rw [hchars, hlast, ofText_nil]
    | cons next rest =>
      rw [toList_respell_cons_cons, ofText_spelling htoken (by rintro c ⟨⟩; rfl), ofText_space,
        ih fun name hname => h name (List.mem_cons_of_mem _ hname)]

/-! ### The names of a source -/

/-- **The atoms of a source have plain names**, but for those with the names of introducers. -/
theorem plain_of_mem_ofSource {source name : String} (h : .atom name ∈ ofSource source)
    (hname : name ∉ ["let", "lambda"]) : Name.Plain name := by
  obtain ⟨⟨token, span⟩, hitem, htoken⟩ := List.mem_map.mp h
  obtain rfl : token = .atom name := htoken
  obtain ⟨before, text, after, -, -, hfragment, -, hdenotes⟩ := mem_scan_iff.mp hitem
  generalize htoken : Token.atom name = token at hdenotes
  cases hdenotes with
  | word hword _ =>
    cases htoken
    exact absurd (by simpa using hword) hname
  | @atom text htext =>
    cases htoken
    have hne : (String.ofList text).toList ≠ [] := by
      obtain ⟨c, rest, rfl, -⟩ := hfragment.eq_cons
      rw [String.toList_ofList]
      exact List.cons_ne_nil c rest
    refine ⟨?_, Name.canonical_canonical _, fun hintroducer => htext ?_⟩
    · intro hempty
      have hidentifier := Name.isIdentifier_canonical hne
      rw [hempty] at hidentifier
      exact absurd hidentifier (by decide)
    · -- An introducer has no underscore in it, so the text would be the introducer itself.
      have hunderscore : ∀ word ∈ ["let", "lambda", "λ"], '_' ∉ word.toList := by decide
      have hreserved : ["let", "lambda", "λ"] ⊆ ["(", ")", "λ", "lambda", "let"] := by decide
      have heq := Name.eq_of_canonical_eq rfl (hunderscore _ hintroducer)
      rw [← heq] at hintroducer
      rw [← String.toList_ofList (l := text)]
      exact List.mem_map_of_mem (hreserved hintroducer)
  | _ => cases htoken

/-- A source without atoms that have the names of introducers has the tokens of its stripped text. -/
theorem ofSource_strip {source : String} (hlet : .atom "let" ∉ ofSource source)
    (hlambda : .atom "lambda" ∉ ofSource source) : ofSource (strip source) = ofSource source := by
  refine ofSource_respell fun name hname => plain_of_mem_ofSource hname fun hmem => ?_
  rcases List.mem_cons.mp hmem with rfl | hmem
  · exact hlet hname
  · obtain rfl := List.mem_singleton.mp hmem
    exact hlambda hname

/-- **Respelling loses nothing.** Tokens whose atoms have plain names are the tokens of the text that
spells them. So a source in which no atom is called `let` or `lambda` has the tokens of its stripped
text; stripping that text again changes nothing; and every backend renders the two alike, that is, as the
same text or not at all, with the same message. -/
theorem respell_lossless :
    (∀ tokens : List Token, (∀ name, .atom name ∈ tokens → Name.Plain name) →
      ofSource (respell tokens) = tokens) ∧
    ∀ source, .atom "let" ∉ ofSource source → .atom "lambda" ∉ ofSource source →
      ofSource (strip source) = ofSource source ∧
      strip (strip source) = strip source ∧
      ∀ (catalogue : Catalogue) (name : String) (prelude : Option String),
        Alike (catalogue.render name (strip source) prelude)
          (catalogue.render name source prelude) := by
  refine ⟨fun tokens => ofSource_respell, fun source hlet hlambda => ?_⟩
  have htokens := ofSource_strip hlet hlambda
  refine ⟨htokens, congrArg respell htokens, fun catalogue name prelude => ?_⟩
  exact catalogue.render_alike name prelude (Program.compile_alike htokens)

/-- Tokens with a name that only starts like an introducer, and a source with comments, the word for
functions and symbols that are no names. -/
theorem respell_lossless_comments :
    ((∀ name,
        .atom name ∈ [Token.opening, .introducer .abstraction, .atom "λx", .atom "letter", .closing] →
          Name.Plain name) ∧
      ofSource "( λ λx letter )" =
        [.opening, .introducer .abstraction, .atom "λx", .atom "letter", .closing]) ∧
    .atom "let" ∉ ofSource "; c\n((lambda x-y x-y) 10);;" ∧
    .atom "lambda" ∉ ofSource "; c\n((lambda x-y x-y) 10);;" ∧
    strip "; c\n((lambda x-y x-y) 10);;" = "( ( λ x_y x_y ) BUILTIN___10 )" ∧
    strip "( ( λ x_y x_y ) BUILTIN___10 )" = "( ( λ x_y x_y ) BUILTIN___10 )" := by
  have hplain : ∀ name,
      .atom name ∈ [Token.opening, .introducer .abstraction, .atom "λx", .atom "letter", .closing] →
        Name.Plain name := by
    intro name hname
    obtain rfl | rfl : name = "λx" ∨ name = "letter" := by simpa using hname
    · decide
    · decide
  have hspelled : respell [.opening, .introducer .abstraction, .atom "λx", .atom "letter", .closing] =
      "( λ λx letter )" := by
    decide
  have htokens := respell_lossless.1 _ hplain
  rw [hspelled] at htokens
  have hlet : .atom "let" ∉ ofSource "; c\n((lambda x-y x-y) 10);;" := by decide
  have hlambda : .atom "lambda" ∉ ofSource "; c\n((lambda x-y x-y) 10);;" := by decide
  have hstrip : strip "; c\n((lambda x-y x-y) 10);;" = "( ( λ x_y x_y ) BUILTIN___10 )" := by decide
  have hagain := (respell_lossless.2 _ hlet hlambda).2.1
  rw [hstrip] at hagain
  exact ⟨⟨hplain, htokens⟩, hlet, hlambda, hstrip, hagain⟩

end Token

/-! ### Which names the atoms of sources have -/

/-- An atom of a source has a name that is its own canonical name, and not the empty one. -/
theorem Token.canonical_eq_of_mem_ofSource {source name : String} (h : .atom name ∈ ofSource source) :
    name ≠ "" ∧ Name.canonical name = name := by
  by_cases hname : name ∈ ["let", "lambda"]
  · have hwords : ∀ word ∈ ["let", "lambda"], word ≠ "" ∧ Name.canonical word = word := by
      decide
    exact hwords name hname
  · have hplain := plain_of_mem_ofSource h hname
    exact ⟨hplain.ne_empty, hplain.canonical_eq⟩

/-- Every such name is the name of an atom, but for the introducer of a function. The other two introducers
are names in front of a blank outside ASCII. -/
theorem Token.exists_mem_ofSource {name : String} (hne : name ≠ "") (h : Name.canonical name = name)
    (hintroducer : name ≠ "λ") : ∃ source, .atom name ∈ ofSource source := by
  by_cases hname : name ∈ ["let", "lambda"]
  · have hwords : ∀ word ∈ ["let", "lambda"], .atom word ∈ ofSource (word ++ "\u00a0") := by
      decide
    exact ⟨_, hwords name hname⟩
  · have hplain : Name.Plain name := by
      refine ⟨hne, h, ?_⟩
      simp only [List.mem_cons, List.not_mem_nil, or_false, not_or] at hname ⊢
      exact ⟨hname.1, hname.2, hintroducer⟩
    refine ⟨respell [.atom name], ?_⟩
    rw [ofSource_respell (by simpa using hplain)]
    exact List.mem_singleton_self _

/-- **Canonical names are fixed, and they are the identifiers that atoms can have for names.** Only the empty
symbol has an empty name. Any other symbol is its own canonical name exactly if its first character can lead
a name, all its characters are characters of identifiers, and it is none of the words of the operators. These
are the names of the atoms of sources, together with `λ`, which by itself introduces a function. -/
theorem Name.canonical_exact (symbol : String) :
    canonical (canonical symbol) = canonical symbol ∧
    (canonical symbol = "" ↔ symbol = "") ∧
    (canonical symbol = symbol ↔
      symbol = "" ∨
        (∃ first, symbol.toList.head? = some first ∧ (first = '_' ∨ Text.isIdentifierStart first)) ∧
        (∀ c ∈ symbol.toList, Text.isIdentifierPart c) ∧
        symbol ≠ "If" ∧ symbol ≠ "True" ∧ symbol ≠ "False") ∧
    (symbol ≠ "" ∧ canonical symbol = symbol ↔
      symbol = "λ" ∨ ∃ source, .atom symbol ∈ Token.ofSource source) := by
  refine ⟨canonical_canonical symbol, canonical_eq_empty_iff, ?_, ?_⟩
  · by_cases hempty : symbol = ""
    · exact iff_of_true (by rw [hempty]; decide) (.inl hempty)
    · have hlead : (∃ first rest, symbol.toList = first :: rest ∧ canLead first) ↔
          ∃ first, symbol.toList.head? = some first ∧ (first = '_' ∨ Text.isIdentifierStart first) := by
        cases symbol.toList with
        | nil => simp
        | cons first rest => simp [canLead]
      have hwords : symbol ∉ words ↔ symbol ≠ "If" ∧ symbol ≠ "True" ∧ symbol ≠ "False" := by
        simp [words]
      rw [canonical_eq_self_iff hempty, isIdentifier_iff, hlead, hwords, or_iff_right hempty,
        and_assoc]
  · constructor
    · rintro ⟨hne, h⟩
      exact Classical.or_iff_not_imp_left.mpr (Token.exists_mem_ofSource hne h)
    · rintro (rfl | ⟨source, h⟩)
      · decide
      · exact Token.canonical_eq_of_mem_ofSource h

end ParenLambda
