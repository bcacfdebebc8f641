import Mathlib.Data.List.Nodup
import TermRewriting.Proofs.Printing

/-!
# What a printed binding set says

A binding set is printed as its entries between braces, with commas between them. The same commas
stand between the arguments of a printed term. Still the printed form says which entries there are.
A name ends where the letters and numbers end. A printed term ends with its name, or with the
parenthesis that closes its arguments; it is never the beginning of another one, unless a letter, a
number or an opening parenthesis comes next. Behind an argument and behind an entry there is a comma
or what closes the list. So arguments and entries can be split off one by one from the front of a
text.

A set has its entries in no order. They are sorted by their names before they are printed, so the
printed form is the same for all orders in which they may be met.

Results:
* `IsName.append_inj`, `Term.splitsOff`: names and terms at the front of a text.
* `eq_of_separated`: lists of items with commas between them, if each item can be split off.
* `Bindings.eq_of_listed`: entries between braces.
* `Bindings.Enumerates.sorted_eq`: sorting the entries of a set, met in any order.
* `Bindings.text_determines`: the printed form of a set determines the set.
-/
namespace TermRewriting

open Text

/-! ## Names and terms at the front of a text -/

theorem IsName.takeWhile_append {x : String} {cs : List Char} (hx : IsName x) (h : EndsName cs) :
    (x.toList ++ cs).takeWhile isAlphanumeric = x.toList :=
  (takeWhile_dropWhile_iff.mpr ⟨rfl, hx.2, h⟩).1

theorem IsName.append_inj {x y : String} {cs ds : List Char} (hx : IsName x) (hy : IsName y)
    (hcs : EndsName cs) (hds : EndsName ds) (h : x.toList ++ cs = y.toList ++ ds) :
    x = y ∧ cs = ds := by
  have hname := congrArg (List.takeWhile isAlphanumeric) h
  rw [hx.takeWhile_append hcs, hy.takeWhile_append hds] at hname
  rw [hname] at h
  exact ⟨String.toList_inj.mp hname, List.append_cancel_left h⟩

/-- The characters begin with a letter or a number. -/
def BeginsName (cs : List Char) : Prop := ∃ c rest, cs = c :: rest ∧ isAlphanumeric c = true

theorem IsName.beginsName {x : String} (hx : IsName x) (cs : List Char) :
    BeginsName (x.toList ++ cs) := by
  obtain ⟨c, rest, hc⟩ := hx.exists_cons
  exact ⟨c, rest ++ cs, by rw [hc, List.cons_append], hx.2 c (by simp [hc])⟩

/-- The characters do not begin with anything that a term could go on with. -/
def EndsTerm (cs : List Char) : Prop := ∀ c ∈ cs.head?, isAlphanumeric c = false ∧ c ≠ '('

theorem EndsTerm.endsName {cs : List Char} (h : EndsTerm cs) : EndsName cs :=
  fun c hc => (h c hc).1

theorem not_endsTerm_paren (cs : List Char) : ¬ EndsTerm ('(' :: cs) := fun h => (h '(' rfl).2 rfl

section
variable {α : Type} {write : α → String} {P : α → Prop} {close : Char} {cs ds : List Char}

/-- In front of anything that ends a term, the text of `a` is the text of no other item, and is not
longer or shorter than it seems. -/
def SplitsOff (write : α → String) (P : α → Prop) (a : α) : Prop :=
  ∀ b, P b → ∀ cs ds, EndsTerm cs → EndsTerm ds →
    (write a).toList ++ cs = (write b).toList ++ ds → a = b ∧ cs = ds

/-- The texts of items, each behind a comma. -/
def commaTexts (write : α → String) (as : List α) : List Char :=
  as.flatMap fun a => ',' :: ' ' :: (write a).toList

theorem toList_intercalate_cons (write : α → String) (a : α) (as : List α) :
    (", ".intercalate ((a :: as).map write)).toList = (write a).toList ++ commaTexts write as := by
  induction as generalizing a with
  | nil => simp [commaTexts]
  | cons b as ih =>
    rw [List.map_cons, List.map_cons, String.intercalate_cons_cons, ← List.map_cons,
      String.toList_append, ih b]
    simp [commaTexts]

/-- The character closes a list: it can neither go on with a term nor separate items. -/
def Closes (c : Char) : Prop := isAlphanumeric c = false ∧ c ≠ '(' ∧ c ≠ ','

theorem endsTerm_commaTexts (hclose : Closes close) (as : List α) (cs : List Char) :
    EndsTerm (commaTexts write as ++ close :: cs) := by
  cases as with
  | nil =>
    intro c hc
    cases hc
    exact ⟨hclose.1, hclose.2.1⟩
  | cons a as =>
    intro c hc
    cases hc
    exact ⟨by decide, by decide⟩

theorem eq_of_commaTexts (hclose : Closes close) : ∀ {as bs : List α},
    (∀ a ∈ as, SplitsOff write P a) → (∀ b ∈ bs, P b) →
    commaTexts write as ++ close :: cs = commaTexts write bs ++ close :: ds → as = bs ∧ cs = ds
  | [], [], _, _, h => ⟨rfl, (List.cons.inj h).2⟩
  | [], _ :: _, _, _, h => absurd (List.cons.inj h).1 hclose.2.2
  | _ :: _, [], _, _, h => absurd (List.cons.inj h).1.symm hclose.2.2
  | a :: as, b :: bs, hsplit, hitems, h => by
    obtain ⟨ha, has⟩ := List.forall_mem_cons.mp hsplit
    obtain ⟨hb, hbs⟩ := List.forall_mem_cons.mp hitems
    have htexts : (write a).toList ++ (commaTexts write as ++ close :: cs) =
        (write b).toList ++ (commaTexts write bs ++ close :: ds) := by
      simpa [commaTexts] using h
    obtain ⟨rfl, hmore⟩ := ha b hb _ _ (endsTerm_commaTexts hclose as cs)
      (endsTerm_commaTexts hclose bs ds) htexts
    obtain ⟨rfl, hrest⟩ := eq_of_commaTexts hclose has hbs hmore
    exact ⟨rfl, hrest⟩

/-- Lists of items with commas between them are told apart up to the character that closes them, if
every item begins with a letter or a number. -/
theorem eq_of_separated (hclose : Closes close)
    (hbegin : ∀ a, P a → BeginsName (write a).toList)
    {as bs : List α} (has : ∀ a ∈ as, P a) (hbs : ∀ b ∈ bs, P b)
    (hsplit : ∀ a ∈ as, SplitsOff write P a)
    (h : (", ".intercalate (as.map write)).toList ++ close :: cs =
      (", ".intercalate (bs.map write)).toList ++ close :: ds) : as = bs ∧ cs = ds := by
  -- An item is no closing character.
  have hne : ∀ a, P a → ∀ xs ys, (write a).toList ++ xs ≠ close :: ys := by
    intro a ha xs ys he
    obtain ⟨c, rest, htext, hc⟩ := hbegin a ha
    rw [htext] at he
    rw [(List.cons.inj he).1, hclose.1] at hc
    cases hc
  cases as with
  | nil =>
    cases bs with
    | nil => exact ⟨rfl, (List.cons.inj h).2⟩
    | cons b bs =>
      rw [toList_intercalate_cons, List.append_assoc] at h
      exact absurd h.symm (hne b (hbs b List.mem_cons_self) _ _)
  | cons a as =>
    cases bs with
    | nil =>
      rw [toList_intercalate_cons, List.append_assoc] at h
      exact absurd h (hne a (has a List.mem_cons_self) _ _)
    | cons b bs =>
      rw [toList_intercalate_cons, toList_intercalate_cons] at h
      refine eq_of_commaTexts hclose hsplit hbs ?_
      simpa [commaTexts] using h

end

namespace Term

theorem toList_text_functor (f : String) (args : List Term) (cs : List Char) :
    (functor f args).text.toList ++ cs =
      f.toList ++ '(' :: ((", ".intercalate (args.map text)).toList ++ ')' :: cs) := by
  simp [text, texts_eq]

theorem beginsName_text {t : Term} (h : t.WellNamed) : BeginsName t.text.toList := by
  rw [← List.append_nil t.text.toList]
  cases t with
  | symbol x => exact (wellNamed_symbol.mp h).beginsName []
  | functor f args =>
    rw [toList_text_functor]
    exact (wellNamed_functor.mp h).1.beginsName _

/-- **Printed terms can be split off.** -/
theorem splitsOff (t : Term) : t.WellNamed → SplitsOff text WellNamed t := by
  have hparen : ∀ cs, EndsName ('(' :: cs) :=
    endsName_of_ofPunctuation? (t := .leftParen) rfl
  induction t with
  | symbol x =>
    intro hx b hb cs ds hcs hds h
    have hx := wellNamed_symbol.mp hx
    cases b with
    | symbol y =>
      obtain ⟨rfl, hrest⟩ := hx.append_inj (wellNamed_symbol.mp hb) hcs.endsName hds.endsName h
      exact ⟨rfl, hrest⟩
    | functor g bs =>
      rw [toList_text_functor] at h
      obtain ⟨-, rfl⟩ := hx.append_inj (wellNamed_functor.mp hb).1 hcs.endsName (hparen _) h
      exact absurd hcs (not_endsTerm_paren _)
  | functor f args ih =>
    intro hf b hb cs ds hcs hds h
    obtain ⟨hf, hargs⟩ := wellNamed_functor.mp hf
    rw [toList_text_functor] at h
    cases b with
    | symbol y =>
      obtain ⟨-, rfl⟩ := hf.append_inj (wellNamed_symbol.mp hb) (hparen _) hds.endsName h
      exact absurd hds (not_endsTerm_paren _)
    | functor g bs =>
      obtain ⟨hg, hbs⟩ := wellNamed_functor.mp hb
      rw [toList_text_functor] at h
      obtain ⟨rfl, hopened⟩ := hf.append_inj hg (hparen _) (hparen _) h
      have hclose : Closes ')' := ⟨by decide, by decide, by decide⟩
      obtain ⟨rfl, hrest⟩ := eq_of_separated hclose (fun _ => beginsName_text) hargs hbs
        (fun a ha => ih a ha (hargs a ha)) (List.cons.inj hopened).2
      exact ⟨rfl, hrest⟩

end Term

/-! ## Entries between braces -/

namespace Bindings

/-- Both names in the entry, the bound one and those of the term, can be written. -/
def WritableEntry (e : Binding) : Prop := IsName e.1 ∧ e.2.WellNamed

instance (e : Binding) : Decidable (WritableEntry e) := inferInstanceAs (Decidable (_ ∧ _))

theorem toList_entryText (e : Binding) (cs : List Char) :
    (entryText e).toList ++ cs = e.1.toList ++ ':' :: ' ' :: (e.2.text.toList ++ cs) := by
  simp [entryText]

theorem splitsOff_entry {e : Binding} (he : WritableEntry e) :
    SplitsOff entryText WritableEntry e := by
  intro f hf cs ds hcs hds h
  have hcolon : ∀ cs, EndsName (':' :: cs) := by
    intro cs c hc
    cases hc
    decide
  obtain ⟨n, t⟩ := e
  obtain ⟨m, u⟩ := f
  rw [toList_entryText, toList_entryText] at h
  obtain ⟨rfl, hvalue⟩ := he.1.append_inj hf.1 (hcolon _) (hcolon _) h
  obtain ⟨rfl, hrest⟩ := t.splitsOff he.2 u hf.2 cs ds hcs hds
    (List.cons.inj (List.cons.inj hvalue).2).2
  exact ⟨rfl, hrest⟩

theorem eq_of_listed {es fs : List Binding} (hes : ∀ e ∈ es, WritableEntry e)
    (hfs : ∀ e ∈ fs, WritableEntry e) (h : listed es = listed fs) : es = fs := by
  have hbegin : ∀ e, WritableEntry e → BeginsName (entryText e).toList := by
    intro e he
    rw [← List.append_nil (entryText e).toList, toList_entryText]
    exact he.1.beginsName _
  have hchars : (", ".intercalate (es.map entryText)).toList ++ ['\x7d'] =
      (", ".intercalate (fs.map entryText)).toList ++ ['\x7d'] := by
    have := congrArg String.toList h
    simpa [listed] using this
  exact (eq_of_separated ⟨by decide, by decide, by decide⟩ hbegin hes hfs
    (fun e he => splitsOff_entry (hes e he)) hchars).1

/-! ## Entries in any order -/

/-- The list has the entries of the set, each name once, in any order. -/
structure Enumerates (b : Bindings) (es : List Binding) : Prop where
  distinct : (es.map Prod.fst).Nodup
  mem_iff : ∀ n u, (n, u) ∈ es ↔ b.get? n = some u

theorem enumerates_entries (b : Bindings) : b.Enumerates b.entries where
  distinct := by
    rw [List.Nodup, List.pairwise_map]
    exact b.ascending.imp fun h => String.ne_of_lt h
  mem_iff n u := get?_eq_some_iff.symm

theorem Enumerates.sorted_eq {b : Bindings} {es : List Binding} (h : b.Enumerates es) :
    sorted es = b.entries := by
  have hperm : (sorted es).Perm b.entries := by
    refine (List.mergeSort_perm es _).trans
      ((List.perm_ext_iff_of_nodup h.distinct.of_map b.enumerates_entries.distinct.of_map).mpr ?_)
    rintro ⟨n, u⟩
    rw [h.mem_iff, get?_eq_some_iff]
  have hsorted : (sorted es).Pairwise fun e f => e.1 ≤ f.1 := by
    have hle : (sorted es).Pairwise fun e f => decide (e.1 ≤ f.1) = true :=
      List.pairwise_mergeSort (fun e f g => by simpa using String.le_trans)
        (fun e f => by simpa using String.le_total e.1 f.1) es
    simpa only [decide_eq_true_eq] using hle
  refine hperm.eq_of_pairwise ?_ hsorted (b.ascending.imp Std.le_of_lt)
  -- Two entries of the set with the same name are the same.
  rintro ⟨n, u⟩ ⟨m, v⟩ he hf hnm hmn
  obtain rfl : n = m := String.le_antisymm hnm hmn
  have hu := get?_eq_some_iff.mpr (hperm.mem_iff.mp he)
  have hv := get?_eq_some_iff.mpr hf
  cases hu.symm.trans hv
  rfl

/-- However the entries of a set are met, they are printed in the order of their names. -/
theorem Enumerates.text_eq {b : Bindings} {es : List Binding} (h : b.Enumerates es) :
    b.text = listed (sorted es) := by
  rw [b.text_eq, h.sorted_eq]

/-- The names of the set, and those in its terms, can be written. -/
def Writable (b : Bindings) : Prop := ∀ n u, b.get? n = some u → WritableEntry (n, u)

theorem Writable.entries {b : Bindings} (h : b.Writable) : ∀ e ∈ b.entries, WritableEntry e :=
  fun e he => h e.1 e.2 (get?_eq_some_iff.mpr he)

/-- **Printed binding sets.** Two sets whose names can be written are the same if they are printed
alike. A set is printed as a list of entries that is in ascending order of the names and has every
bound name with its term, and nothing else; if the names can be written, no other list of such
entries is printed that way. -/
theorem text_determines :
    (∀ b c : Bindings, b.Writable → c.Writable → b.text = c.text → b = c) ∧
    ∀ b : Bindings, ∃ es : List Binding, b.text = listed es ∧ es.Pairwise (·.1 < ·.1) ∧
      (∀ n u, (n, u) ∈ es ↔ b.get? n = some u) ∧
      (b.Writable → ∀ fs, (∀ e ∈ fs, WritableEntry e) → b.text = listed fs → fs = es) := by
  constructor
  · intro b c hb hc h
    rw [text_eq, text_eq] at h
    have hentries := eq_of_listed hb.entries hc.entries h
    refine ext_get? fun n => ?_
    rw [get?, get?, hentries]
  · intro b
    refine ⟨b.entries, b.text_eq, b.ascending, fun n u => get?_eq_some_iff.symm,
      fun hb fs hfs h => ?_⟩
    rw [text_eq] at h
    exact eq_of_listed hfs hb.entries h.symm

/-- Two sets with commas in their terms, made in different orders and one of them with a name bound
twice. -/
theorem text_determines_nested :
    let t : Term := .functor "f" [.symbol "x", .functor "g" [.symbol "y", .symbol "é"]]
    let b := ofList [("y", .functor "h" []), ("x", t)]
    let c := ofList [("x", .symbol "z"), ("x", t), ("y", .functor "h" [])]
    b.text = "\x7bx: f(x, g(y, é)), y: h()\x7d" ∧ b.Writable ∧ c.Writable ∧ b.text = c.text ∧
      b = c ∧ ∃ es, b.text = listed es ∧
        ∀ fs, (∀ e ∈ fs, WritableEntry e) → b.text = listed fs → fs = es := by
  intro t b c
  have hb : b.entries = [("x", t), ("y", .functor "h" [])] := by decide +kernel
  have hc : c.entries = [("x", t), ("y", .functor "h" [])] := by decide +kernel
  have hprinted : b.text = "\x7bx: f(x, g(y, é)), y: h()\x7d" := by
    rw [text_eq]
    decide +kernel
  have hnames : ∀ e ∈ [("x", t), ("y", .functor "h" [])], WritableEntry e := by decide +kernel
  have hbnames : b.Writable := fun n u h => hnames _ (hb ▸ get?_eq_some_iff.mp h)
  have hcnames : c.Writable := fun n u h => hnames _ (hc ▸ get?_eq_some_iff.mp h)
  have htext : b.text = c.text := by rw [text_eq, text_eq, hb, hc]
  obtain ⟨hdetermined, hlisted⟩ := text_determines
  obtain ⟨es, hes, -, -, hunique⟩ := hlisted b
  exact ⟨hprinted, hbnames, hcnames, htext, hdetermined b c hbnames hcnames htext, es, hes,
    hunique hbnames⟩

/-- With names that cannot be written, different sets may be printed alike. -/
example : (ofList [("x", .symbol "a, y: b")]).text =
    (ofList [("x", .symbol "a"), ("y", .symbol "b")]).text := by
  rw [text_eq, text_eq]
  decide +kernel

end Bindings

end TermRewriting
