import TermRewriting.Console
import TermRewriting.Proofs.Respacing

/-!
# The two sides of a rule

A rule is read from a text exactly if its sides are read from what stands in front of an equals sign
and from what stands behind it. So a command that reads a rule works on the terms that the command for
showing terms shows.

A text can be cut in front of every character that does not go on with a name: the parts write the
tokens of the text between them (`writes_append_iff`). An equals sign is such a character and writes a
token of its own, and no term is written with it. So there is one equals sign in the text of a rule,
and in front of it stand the tokens of the head.

Results:
* `writes_append_iff`, `writes_punctuation_iff`, `writes_blank_iff`: what the parts of a text write.
* `Term.equals_not_mem_tokens`: no term is written with an equals sign.
* `Rule.parse_sides_iff`, `Rule.exists_sides`: a text with an equals sign, and the text of a rule.
* `Console.reply_parse_iff`, `Console.evaluate_rule_iff`, `Console.reply_match_iff`: the commands
  that read terms and rules.
* `rule_parse_iff_sides`: rules are read side by side.
-/
namespace TermRewriting

open Text

/-! ## Parts of a text -/

theorem EndsName.append {cs ds : List Char} (hc : EndsName cs) (hd : EndsName ds) :
    EndsName (cs ++ ds) := by
  cases cs with
  | nil => exact hd
  | cons c cs => exact hc

theorem EndsName.of_append {cs ds : List Char} (h : EndsName (cs ++ ds)) : EndsName cs := by
  cases cs with
  | nil => exact endsName_nil
  | cons c cs => exact h

theorem Writes.append {cs ds : List Char} {ts us : List Token} (h : Writes cs ts)
    (hend : EndsName ds) (hd : Writes ds us) : Writes (cs ++ ds) (ts ++ us) := by
  induction h with
  | nil => exact hd
  | blank hc _ ih => exact .blank hc ih
  | punctuation hc _ ih => exact .punctuation hc ih
  | name hx hcs _ ih =>
    rw [List.append_assoc]
    exact .name hx (hcs.append hend) ih

/-- A text in which the second part does not go on with a name writes the tokens of its parts. -/
theorem Writes.exists_of_append {ds : List Char} (hend : EndsName ds) {es : List Char}
    {ts : List Token} (h : Writes es ts) : ∀ {cs : List Char}, es = cs ++ ds →
    ∃ us vs, ts = us ++ vs ∧ Writes cs us ∧ Writes ds vs := by
  -- With nothing in the first part, the tokens are all written by the second one.
  have hstart : ∀ {es : List Char} {ts : List Token}, Writes es ts → es = ds →
      ∃ us vs, ts = us ++ vs ∧ Writes [] us ∧ Writes ds vs := by
    intro es ts h hes
    exact ⟨[], ts, rfl, .nil, hes ▸ h⟩
  induction h with
  | nil =>
    intro cs hcs
    obtain ⟨rfl, rfl⟩ := List.append_eq_nil_iff.mp hcs.symm
    exact hstart .nil rfl
  | blank hb h ih =>
    intro cs hcs
    cases cs with
    | nil => exact hstart (.blank hb h) hcs
    | cons c cs =>
      obtain ⟨rfl, hrest⟩ := List.cons.inj hcs
      obtain ⟨us, vs, rfl, hus, hvs⟩ := ih hrest
      exact ⟨us, vs, rfl, .blank hb hus, hvs⟩
  | @punctuation b t _ _ hb h ih =>
    intro cs hcs
    cases cs with
    | nil => exact hstart (.punctuation hb h) hcs
    | cons c cs =>
      obtain ⟨rfl, hrest⟩ := List.cons.inj hcs
      obtain ⟨us, vs, rfl, hus, hvs⟩ := ih hrest
      exact ⟨t :: us, vs, rfl, .punctuation hb hus, hvs⟩
  | @name x _ _ hx hrest h ih =>
    intro cs hcs
    rcases List.append_eq_append_iff.mp hcs with ⟨cs', rfl, hcs'⟩ | ⟨name', hname, rfl⟩
    · obtain ⟨us, vs, rfl, hus, hvs⟩ := ih hcs'
      exact ⟨.symbol x :: us, vs, rfl, .name hx (hcs' ▸ hrest).of_append hus, hvs⟩
    · cases name' with
      | nil =>
        obtain ⟨us, vs, rfl, hus, hvs⟩ := @ih [] rfl
        rw [List.append_nil] at hname
        have hname' : cs = x.toList ++ [] := by rw [List.append_nil, hname]
        rw [hname']
        exact ⟨.symbol x :: us, vs, rfl, .name hx endsName_nil hus, hvs⟩
      | cons c name' =>
        -- The second part would go on with the name.
        have hc : isAlphanumeric c = true := hx.2 c (by rw [hname]; simp)
        have hstop : isAlphanumeric c = false := hend c rfl
        rw [hc] at hstop
        cases hstop

theorem writes_append_iff {cs ds : List Char} {ts : List Token} (hend : EndsName ds) :
    Writes (cs ++ ds) ts ↔ ∃ us vs, ts = us ++ vs ∧ Writes cs us ∧ Writes ds vs := by
  constructor
  · exact fun h => h.exists_of_append hend rfl
  · rintro ⟨us, vs, rfl, hus, hvs⟩
    exact hus.append hend hvs

/-- A text that is not empty begins with a blank, with a token of one character, or with a name. -/
theorem Writes.cons_inv {c : Char} {cs : List Char} {ts : List Token} (h : Writes (c :: cs) ts) :
    (isBlank c = true ∧ Writes cs ts) ∨
    (∃ t us, Token.ofPunctuation? c = some t ∧ ts = t :: us ∧ Writes cs us) ∨
    isAlphanumeric c = true := by
  generalize hes : c :: cs = es at h
  cases h with
  | nil => cases hes
  | blank hb h =>
    cases hes
    exact Or.inl ⟨hb, h⟩
  | punctuation hp h =>
    cases hes
    exact Or.inr (Or.inl ⟨_, _, hp, rfl, h⟩)
  | name hx _ _ =>
    obtain ⟨d, name, hname⟩ := hx.exists_cons
    rw [hname, List.cons_append] at hes
    cases hes
    exact Or.inr (Or.inr (hx.2 c (by simp [hname])))

theorem writes_punctuation_iff {c : Char} {t : Token} (hc : Token.ofPunctuation? c = some t)
    {cs : List Char} {ts : List Token} :
    Writes (c :: cs) ts ↔ ∃ us, ts = t :: us ∧ Writes cs us := by
  obtain ⟨hblank, halpha, -⟩ := Token.ofPunctuation?_eq_some hc
  constructor
  · intro h
    rcases h.cons_inv with ⟨hb, -⟩ | ⟨t', us, hp, rfl, hus⟩ | ha
    · rw [hblank] at hb
      cases hb
    · cases hc.symm.trans hp
      exact ⟨us, rfl, hus⟩
    · rw [halpha] at ha
      cases ha
  · rintro ⟨us, rfl, h⟩
    exact .punctuation hc h

theorem writes_blank_iff {c : Char} (hc : isBlank c = true) {cs : List Char} {ts : List Token} :
    Writes (c :: cs) ts ↔ Writes cs ts := by
  constructor
  · intro h
    rcases h.cons_inv with ⟨-, h⟩ | ⟨t, us, hp, -⟩ | ha
    · exact h
    · rw [(Token.ofPunctuation?_eq_some hp).1] at hc
      cases hc
    · rw [isBlank_of_isAlphanumeric ha] at hc
      cases hc
  · exact .blank hc

theorem writes_nil_iff {ts : List Token} : Writes [] ts ↔ ts = [] := by
  constructor
  · intro h
    generalize hes : [] = es at h
    cases h with
    | nil => rfl
    | name hx _ _ =>
      obtain ⟨d, name, hname⟩ := hx.exists_cons
      rw [hname] at hes
      cases hes
    | _ => cases hes
  · rintro rfl
    exact .nil

/-- Blanks at the end write nothing. -/
theorem writes_append_blank_iff {c : Char} (hc : isBlank c = true) {cs : List Char}
    {ts : List Token} : Writes (cs ++ [c]) ts ↔ Writes cs ts := by
  rw [writes_append_iff (endsName_of_isBlank hc [])]
  simp [writes_blank_iff hc, writes_nil_iff]

/-- A token that is written with one character stands in every text that writes it. -/
theorem Writes.mem_of_mem {c : Char} {t : Token} (hc : Token.ofPunctuation? c = some t)
    {cs : List Char} {ts : List Token} (h : Writes cs ts) (ht : t ∈ ts) : c ∈ cs := by
  have hmem : c ∈ nonblank cs := by
    rw [h.nonblank_eq, List.mem_flatMap]
    exact ⟨t, ht, by simp [Token.text_of_ofPunctuation? hc]⟩
  exact (List.mem_filter.mp hmem).1

/-! ## Sides -/

theorem Term.equals_not_mem_tokens (t : Term) : .equals ∉ t.tokens := by
  induction t with
  | symbol x => simp [tokens]
  | functor f args ih => simpa [tokens, mem_argTokens] using ih

/-- An equals sign between two texts makes them the sides of a rule. -/
theorem Rule.parse_sides_iff {s₁ s₂ : String} {h b : Term} :
    Rule.parse (s₁ ++ "=" ++ s₂) = .ok ⟨h, b⟩ ↔
      Term.parse s₁ = .ok h ∧ Term.parse s₂ = .ok b := by
  have hequals : Token.ofPunctuation? '=' = some .equals := rfl
  have htext : (s₁ ++ "=" ++ s₂).toList = s₁.toList ++ '=' :: s₂.toList := by simp
  rw [Rule.parse_eq_ok_iff, Term.parse_eq_ok_iff, Term.parse_eq_ok_iff, htext,
    writes_append_iff (endsName_of_ofPunctuation? hequals _)]
  simp only [writes_punctuation_iff hequals]
  constructor
  · rintro ⟨us, _, htokens, hus, vs, rfl, hvs⟩
    -- Neither side has an equals sign, so it is the one behind the head.
    obtain ⟨rfl, -, rfl⟩ := (List.append_cons_inj_of_notMem h.equals_not_mem_tokens
      b.equals_not_mem_tokens).mp htokens
    exact ⟨hus, hvs⟩
  · rintro ⟨hus, hvs⟩
    exact ⟨h.tokens, _, rfl, hus, b.tokens, rfl, hvs⟩

theorem Rule.exists_sides {s : String} {r : Rule} (h : Rule.parse s = .ok r) :
    ∃ s₁ s₂, s = s₁ ++ "=" ++ s₂ := by
  have hmem : '=' ∈ s.toList :=
    (Rule.parse_eq_ok_iff.mp h).mem_of_mem (t := .equals) rfl (by simp)
  obtain ⟨cs, ds, hs⟩ := List.append_of_mem hmem
  refine ⟨String.ofList cs, String.ofList ds, ?_⟩
  rw [← String.toList_inj, hs]
  simp

/-- Blanks around the equals sign do not matter. -/
theorem Rule.parse_spaced_iff {p t : String} {h b : Term} :
    Rule.parse (p ++ " = " ++ t) = .ok ⟨h, b⟩ ↔ Term.parse p = .ok h ∧ Term.parse t = .ok b := by
  have htext : p ++ " = " ++ t = (p ++ " ") ++ "=" ++ (" " ++ t) := by
    simp [← String.toList_inj]
  have hhead : (p ++ " ").toList = p.toList ++ [' '] := by simp
  have hbody : (" " ++ t).toList = ' ' :: t.toList := by simp
  rw [htext, Rule.parse_sides_iff]
  simp only [Term.parse_eq_ok_iff]
  rw [hhead, hbody, writes_append_blank_iff rfl, writes_blank_iff rfl]

/-! ## Commands that read terms and rules -/

namespace Console

variable (c : Console)

/-- A colon with a word, and a text behind a space. -/
theorem evaluate_word {word : String} {d : Char} {ds : List Char} (hword : word.toList = d :: ds)
    (hd : isBlank d = false) (hspace : ' ' ∉ word.toList) (text : String) :
    c.evaluate (":" ++ word ++ " " ++ text) = c.perform (.ofWord word) text := by
  have hsplit : splitCommand (":" ++ "" ++ word ++ " " ++ text) = (word, text) :=
    splitCommand_word (by simp) hword hd hspace text
  rw [String.append_empty] at hsplit
  have hblank : allBlank (":" ++ word ++ " " ++ text) = false := by
    rw [Bool.eq_false_iff]
    intro h
    exact head?_ne_colon_of_allBlank h (by simp)
  rw [evaluate_of_not_allBlank hblank, hsplit]

theorem reply_parse_iff {text : String} {t : Term} :
    (c.evaluate (":parse " ++ text)).reply = .term t ↔ Term.parse text = .ok t := by
  have hline : ":parse " = ":" ++ "parse" ++ " " := by decide
  rw [hline, c.evaluate_word rfl (by decide) (by decide)]
  show (parse text) = .term t ↔ _
  rw [parse]
  cases Term.parse text <;> simp

theorem evaluate_rule_iff {text : String} {r : Rule} :
    c.evaluate (":rule " ++ text) = ⟨⟨some r⟩, .rule r, []⟩ ↔ Rule.parse text = .ok r := by
  have hline : ":rule " = ":" ++ "rule" ++ " " := by decide
  rw [hline, c.evaluate_word rfl (by decide) (by decide)]
  show c.setRule text = _ ↔ _
  rw [setRule]
  cases Rule.parse text <;> simp [keep]

theorem reply_match_iff {text : String} {found : Option Bindings} :
    (c.evaluate (":match " ++ text)).reply = .found found ↔
      ∃ r, Rule.parse text = .ok r ∧ found = r.head.match? r.body := by
  have hline : ":match " = ":" ++ "match" ++ " " := by decide
  rw [hline, c.evaluate_word rfl (by decide) (by decide)]
  show (c.matchTerms text).reply = .found found ↔ _
  rw [matchTerms]
  cases Rule.parse text <;> simp [Term.tryMatch, keep, eq_comm]

end Console

/-- **Rules are read side by side.** A text is read as a rule exactly if it has an equals sign with
the head in front of it and the body behind it, each as the text of a term. So the commands that set a
rule and match two terms work on the terms that the command for showing terms shows for the two texts,
and on no others. -/
theorem rule_parse_iff_sides :
    (∀ (s : String) (h b : Term), Rule.parse s = .ok ⟨h, b⟩ ↔
      ∃ s₁ s₂, s = s₁ ++ "=" ++ s₂ ∧ Term.parse s₁ = .ok h ∧ Term.parse s₂ = .ok b) ∧
    ∀ (c : Console) (p t : String),
      (∀ h b, c.evaluate (":rule " ++ p ++ " = " ++ t) = ⟨⟨some ⟨h, b⟩⟩, .rule ⟨h, b⟩, []⟩ ↔
        (c.evaluate (":parse " ++ p)).reply = .term h ∧
        (c.evaluate (":parse " ++ t)).reply = .term b) ∧
      ∀ found, (c.evaluate (":match " ++ p ++ " = " ++ t)).reply = .found found ↔
        ∃ h b, (c.evaluate (":parse " ++ p)).reply = .term h ∧
          (c.evaluate (":parse " ++ t)).reply = .term b ∧ found = h.match? b := by
  refine ⟨fun s h b => ⟨fun hs => ?_, ?_⟩, fun c p t => ⟨fun h b => ?_, fun found => ?_⟩⟩
  · obtain ⟨s₁, s₂, rfl⟩ := Rule.exists_sides hs
    exact ⟨s₁, s₂, rfl, Rule.parse_sides_iff.mp hs⟩
  · rintro ⟨s₁, s₂, rfl, hsides⟩
    exact Rule.parse_sides_iff.mpr hsides
  · have hline : ":rule " ++ p ++ " = " ++ t = ":rule " ++ (p ++ " = " ++ t) := by
      simp only [String.append_assoc]
    rw [hline, c.evaluate_rule_iff, Rule.parse_spaced_iff, c.reply_parse_iff, c.reply_parse_iff]
  · have hline : ":match " ++ p ++ " = " ++ t = ":match " ++ (p ++ " = " ++ t) := by
      simp only [String.append_assoc]
    simp only [hline, c.reply_match_iff, c.reply_parse_iff]
    constructor
    · rintro ⟨⟨h, b⟩, hr, rfl⟩
      obtain ⟨hh, hb⟩ := Rule.parse_spaced_iff.mp hr
      exact ⟨h, b, hh, hb, rfl⟩
    · rintro ⟨h, b, hh, hb, rfl⟩
      exact ⟨⟨h, b⟩, Rule.parse_spaced_iff.mpr ⟨hh, hb⟩, rfl⟩

end TermRewriting
