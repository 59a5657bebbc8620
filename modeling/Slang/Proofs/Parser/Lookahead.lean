import Slang.Proofs.Grammar.Complete
import Slang.Proofs.Parser.Error

/-!
# Reading with one token of lookahead

Reading goes from left to right and looks one token ahead.  To say so, reading in front of one rest
is compared with reading in front of another.  The tokens that a function took are taken again if
the next token is the same, or if it goes on with nothing.  A function that gives up does so
whatever comes after the token it reports, and some other tokens in its place let it finish, unless
it has read a variable to declare that lacks its sigil.

All of this is kept when functions are put together, which is what this module shows.
-/

namespace Slang.Parser

open Slang.Grammar

/-- The result of reading something from the front of a row of tokens. -/
abbrev Reading (α : Type) := Except ParseFailure (α × List Token)

/-- The first of the tokens, if there is one, goes on with nothing that stands in front of it. -/
def Breaks (rest : List Token) : Prop :=
  Follow loosest rest ∧ ∀ t ∈ rest.head?, t.kind ≠ .deadass ∧ t.kind ≠ .asWord

/-- Tokens as they may stand in a source text, and no end mark among them. -/
def Genuine (more : List Token) : Prop :=
  ∀ t ∈ more, t.kind ≠ .endOfFile ∧ t.Faithful

/-- Some tokens are read as a whole in front of any tokens that go on with nothing. -/
def Finishes {α : Type} (f : List Token → Reading α) : Prop :=
  ∃ more a, Genuine more ∧ ∀ rest, Breaks rest → f (more ++ rest) = .ok (a, rest)

/-- As before, and the tokens that are read go on with nothing either. -/
def Resumes {α : Type} (f : List Token → Reading α) : Prop :=
  ∃ more a, Genuine more ∧
    ∀ rest, Breaks rest → Breaks (more ++ rest) ∧ f (more ++ rest) = .ok (a, rest)

/-- A declaration has begun, and its variable lacks a sigil.  Some tokens let this be found, and no
tokens let the function finish. -/
structure Unmarked {α : Type} (f : List Token → Reading α) : Prop where
  found : ∃ more target, Genuine more ∧
    ∀ rest, Breaks rest → f (more ++ rest) = .error (.noSigil target)
  hopeless : ∀ rest a, f rest ≠ .ok a

/-- The tokens that were taken are taken in front of other tokens as well: if the next one is the
same, and where the function is free to stop, if the next one goes on with nothing. -/
structure Takes {α : Type} (free : List Token → Prop) (f : List Token → Reading α)
    (used rest : List Token) (a : α) : Prop where
  same : ∀ rest', rest'.head? = rest.head? → f (used ++ rest') = .ok (a, rest')
  broken : free rest → ∀ rest', Breaks rest' → f (used ++ rest') = .ok (a, rest')

/-- No tokens after the reported one help, and without it there are tokens that do, unless a sigil
is missing. -/
structure GivesUp {α : Type} (f : List Token → Reading α) (before : List Token) (e : ParseError) :
    Prop where
  certain : ∀ after, f (before ++ e.token :: after) = .error (.unexpected e)
  completable : (Finishes fun rest => f (before ++ rest)) ∨ Unmarked fun rest => f (before ++ rest)

/-- Reading looks one token ahead, and gives up at the first token that is impossible. -/
structure Predictive {α : Type} (free : List Token → Prop) (f : List Token → Reading α)
    (ts : List Token) : Prop where
  ok : ∀ {a rest}, f ts = .ok (a, rest) → HasEnd ts →
    HasEnd rest ∧ ∃ used, ts = used ++ rest ∧ Takes free f used rest a
  error : ∀ {e}, f ts = .error (.unexpected e) → HasEnd ts →
    ∃ before after, ts = before ++ e.token :: after ∧ GivesUp f before e

/-! ## Tokens that go on with nothing -/

theorem breaks_cons {t : Token} {rest : List Token} :
    Breaks (t :: rest) ↔
      (t.kind ≠ .power ∧ ∀ k, level? t.kind = some k → loosest < k) ∧
        t.kind ≠ .deadass ∧ t.kind ≠ .asWord := by
  simp [Breaks, follow_cons]

theorem Breaks.follow
    {rest : List Token} (h : Breaks rest) (level : Nat) : Follow level rest := by
  intro t ht
  obtain ⟨hpower, hlevel⟩ := h.1 t ht
  refine ⟨hpower, fun k hk => ?_⟩
  have hlt := hlevel k hk
  have hle := (level?_pos hk).2
  omega

/-! ## Tokens to go on with -/

/-- A token of the kind as it may stand in a source text. -/
def typical (kind : Token.Kind) : Token :=
  match kind with
  | .number => ⟨kind, "0", .number 0, 1⟩
  | .text => ⟨kind, "\"\"", .text "", 1⟩
  | .character => ⟨kind, "'x'", .text "x", 1⟩
  | .identifier => ⟨kind, "x", .absent, 1⟩
  | .sigilIdentifier => ⟨kind, "$x", .absent, 1⟩
  | .endOfFile => ⟨kind, "", .absent, 1⟩
  | kind =>
    let word? := Token.Kind.keywords.findSome? fun (word, meant) =>
      if meant = kind then some word else none
    ⟨kind, word?.getD kind.symbol, .absent, 1⟩

@[simp] theorem typical_kind (kind : Token.Kind) : (typical kind).kind = kind := by
  cases kind <;> rfl

theorem faithful_typical (kind : Token.Kind) : (typical kind).Faithful where
  number := by
    rw [typical_kind]
    rintro rfl
    exact ⟨0, rfl⟩
  text := by
    rw [typical_kind]
    rintro (rfl | rfl)
    · exact ⟨"", rfl⟩
    · exact ⟨"x", rfl⟩
  sigil := by
    rw [typical_kind]
    rintro rfl
    exact ⟨'$', ['x'], rfl, rfl⟩

theorem genuine_nil : Genuine [] :=
  List.forall_mem_nil _

theorem Genuine.append {more others : List Token} (h : Genuine more) (hothers : Genuine others) :
    Genuine (more ++ others) :=
  List.forall_mem_append.mpr ⟨h, hothers⟩

theorem genuine_typical {kind : Token.Kind} (h : kind ≠ .endOfFile) : Genuine [typical kind] := by
  rintro t ht
  rw [List.mem_singleton.mp ht]
  exact ⟨by rwa [typical_kind], faithful_typical kind⟩

section Combining

variable {α β : Type} {free free' : List Token → Prop} {f h : List Token → Reading α}
  {ts : List Token}

theorem Resumes.finishes (hf : Resumes f) : Finishes f := by
  obtain ⟨more, a, hmore, hread⟩ := hf
  exact ⟨more, a, hmore, fun rest hrest => (hread rest hrest).2⟩

theorem finishes_typical
    {kind : Token.Kind} (hkind : kind ≠ .endOfFile)
    (hf : Finishes fun rest => f (typical kind :: rest)) : Finishes f := by
  obtain ⟨more, a, hmore, hread⟩ := hf
  exact ⟨typical kind :: more, a, (genuine_typical hkind).append hmore, hread⟩

theorem Finishes.bind
    {next : α × List Token → Reading β} (hf : Finishes f)
    (hnext : ∀ a, Resumes fun rest => next (a, rest)) :
    Finishes fun rest => (f rest).bind next := by
  obtain ⟨more, a, hmore, hread⟩ := hf
  obtain ⟨others, b, hothers, hgoes⟩ := hnext a
  refine ⟨more ++ others, b, hmore.append hothers, fun rest hrest => ?_⟩
  obtain ⟨hbreaks, hlast⟩ := hgoes rest hrest
  simp only [List.append_assoc, hread _ hbreaks, Except.bind, hlast]

theorem Unmarked.bind (hf : Unmarked f) (next : α × List Token → Reading β) :
    Unmarked fun rest => (f rest).bind next where
  found := by
    obtain ⟨more, target, hmore, hread⟩ := hf.found
    refine ⟨more, target, hmore, fun rest hrest => ?_⟩
    simp only [hread rest hrest, Except.bind]
  hopeless := by
    intro rest b hread
    obtain ⟨a, hfirst, -⟩ := bind_eq_ok.mp hread
    exact hf.hopeless rest a hfirst

/-- The sigil is looked at after everything else has been read. -/
theorem Finishes.unmarked (hf : Finishes f) (target : Token) :
    Unmarked fun rest => (f rest).bind fun _ => (.error (.noSigil target) : Reading β) where
  found := by
    obtain ⟨more, a, hmore, hread⟩ := hf
    refine ⟨more, target, hmore, fun rest hrest => ?_⟩
    simp only [hread rest hrest, Except.bind]
  hopeless := by
    intro rest b hread
    obtain ⟨a, -, hdone⟩ := bind_eq_ok.mp hread
    cases hdone

theorem Resumes.bind
    {next : α × List Token → Reading β} (hf : Resumes f)
    (hnext : ∀ a, Resumes fun rest => next (a, rest)) :
    Resumes fun rest => (f rest).bind next := by
  obtain ⟨more, a, hmore, hread⟩ := hf
  obtain ⟨others, b, hothers, hgoes⟩ := hnext a
  refine ⟨more ++ others, b, hmore.append hothers, fun rest hrest => ?_⟩
  obtain ⟨hbreaks, hlast⟩ := hgoes rest hrest
  obtain ⟨hfirst, hread⟩ := hread _ hbreaks
  simp only [List.append_assoc, hread, Except.bind, hlast]
  exact ⟨hfirst, trivial⟩

theorem Resumes.map (hf : Resumes f) (k : α → β) :
    Resumes fun rest => (f rest).bind fun found => .ok (k found.1, found.2) := by
  obtain ⟨more, a, hmore, hread⟩ := hf
  refine ⟨more, k a, hmore, fun rest hrest => ?_⟩
  obtain ⟨hbreaks, hfirst⟩ := hread rest hrest
  simp only [hfirst, Except.bind]
  exact ⟨hbreaks, trivial⟩

/-- What takes nothing in front of tokens that go on with nothing. -/
theorem resumes_of_breaks {a : α} (hf : ∀ rest, Breaks rest → f rest = .ok (a, rest)) :
    Resumes f :=
  ⟨[], a, genuine_nil, fun rest hrest => ⟨hrest, hf rest hrest⟩⟩

theorem resumes_done (a : α) : Resumes fun rest => .ok (a, rest) :=
  resumes_of_breaks fun _ _ => rfl

/-! ## Putting functions together -/

theorem predictive_nil : Predictive free f [] where
  ok := by
    rintro a rest - ⟨t, ht, -⟩
    cases ht
  error := by
    rintro e - ⟨t, ht, -⟩
    cases ht

theorem predictive_same
    {a : α} (hsame : ∀ rest, rest.head? = ts.head? → f rest = .ok (a, rest))
    (hbroken : free ts → ∀ rest, Breaks rest → f rest = .ok (a, rest)) :
    Predictive free f ts where
  ok := by
    intro b rest hread hend
    rw [hsame ts rfl] at hread
    cases hread
    exact ⟨hend, [], rfl, hsame, hbroken⟩
  error := by
    intro e hread
    rw [hsame ts rfl] at hread
    cases hread

theorem predictive_done (a : α) : Predictive free (fun rest => .ok (a, rest)) ts :=
  predictive_same (fun _ _ => rfl) (fun _ _ _ => rfl)

theorem predictive_error
    {t : Token} (expected : Expectation)
    (herror : ∀ rest, f (t :: rest) = .error (.unexpected ⟨t, expected⟩)) (hf : Finishes f) :
    Predictive free f (t :: ts) where
  ok := by
    intro a rest hread
    rw [herror] at hread
    cases hread
  error := by
    intro e hread hend
    rw [herror] at hread
    cases hread
    exact ⟨[], ts, rfl, herror, .inl hf⟩

theorem Predictive.cons
    {t : Token} (hh : Predictive free h ts) (ht : t.kind ≠ .endOfFile)
    (heq : ∀ rest, f (t :: rest) = h rest) : Predictive free f (t :: ts) where
  ok := by
    intro a rest hread hend
    rw [heq] at hread
    obtain ⟨hrest, used, rfl, htakes⟩ := hh.ok hread (hend.tail ht)
    refine ⟨hrest, t :: used, rfl, ?_, ?_⟩
    · intro rest' hhead
      rw [List.cons_append, heq, htakes.same rest' hhead]
    · intro hfree rest' hbreaks
      rw [List.cons_append, heq, htakes.broken hfree rest' hbreaks]
  error := by
    intro e hread hend
    rw [heq] at hread
    obtain ⟨before, after, rfl, hgives⟩ := hh.error hread (hend.tail ht)
    refine ⟨t :: before, after, rfl, ?_, ?_⟩
    · intro after'
      rw [List.cons_append, heq, hgives.certain after']
    · simpa only [List.cons_append, heq] using hgives.completable

/-- Two functions agree on all rows with a certain first token, except where the second one takes
that token alone and could not stop so early here. -/
def AgreeAfter (f h : List Token → Reading α) (t : Token) (ts : List Token) : Prop :=
  ∀ rest, f (t :: rest) = h (t :: rest) ∨
    rest.head? ≠ ts.head? ∧ ¬Breaks rest ∧ ∃ a, h (t :: rest) = .ok (a, rest)

theorem AgreeAfter.eq_of_ok
    {t : Token} (hagree : AgreeAfter f h t ts) {later rest : List Token} {a : α}
    (hread : h (t :: (later ++ rest)) = .ok (a, rest))
    (hrest : later = [] → rest.head? = ts.head? ∨ Breaks rest) :
    f (t :: (later ++ rest)) = .ok (a, rest) := by
  rcases hagree (later ++ rest) with heq | ⟨hhead, hbreaks, b, hstop⟩
  · rw [heq, hread]
  · rw [hstop] at hread
    obtain ⟨-, rfl⟩ : b = a ∧ later = [] := by simpa using hread
    exact absurd (hrest rfl) (by simp_all)

theorem AgreeAfter.eq_of_error
    {t : Token} (hagree : AgreeAfter f h t ts) {rest : List Token} {failure : ParseFailure}
    (hread : h (t :: rest) = .error failure) : f (t :: rest) = .error failure := by
  rcases hagree rest with heq | ⟨-, -, b, hstop⟩
  · rw [heq, hread]
  · simp [hstop] at hread

theorem Predictive.congr
    {t : Token} (hh : Predictive free h (t :: ts)) (hagree : AgreeAfter f h t ts)
    (hshorter : ∀ a rest, f (t :: ts) = .ok (a, rest) → rest.length < (t :: ts).length)
    (hf : Finishes f) : Predictive free f (t :: ts) := by
  have hhere : f (t :: ts) = h (t :: ts) := by
    rcases hagree ts with heq | ⟨hhead, -⟩
    · exact heq
    · exact absurd rfl hhead
  constructor
  · intro a rest hread hend
    have hlength := hshorter a rest hread
    rw [hhere] at hread
    obtain ⟨hrest, used, hused, htakes⟩ := hh.ok hread hend
    cases used with
    | nil =>
        rw [hused] at hlength
        exact absurd hlength (Nat.lt_irrefl _)
    | cons first later =>
        obtain ⟨rfl, rfl⟩ := List.cons.inj hused
        refine ⟨hrest, t :: later, rfl, ?_, ?_⟩
        · intro rest' hhead
          apply hagree.eq_of_ok (htakes.same rest' hhead)
          rintro rfl
          exact .inl hhead
        · intro hfree rest' hbreaks
          exact hagree.eq_of_ok (htakes.broken hfree rest' hbreaks) fun _ => .inr hbreaks
  · intro e hread hend
    rw [hhere] at hread
    obtain ⟨before, after, hbefore, hgives⟩ := hh.error hread hend
    cases before with
    | nil =>
        obtain ⟨rfl, rfl⟩ := List.cons.inj hbefore
        exact ⟨[], ts, rfl, fun after' => hagree.eq_of_error (hgives.certain after'), .inl hf⟩
    | cons first later =>
        obtain ⟨rfl, rfl⟩ := List.cons.inj hbefore
        refine ⟨t :: later, after, rfl, ?_, hgives.completable.imp ?_ fun hunmarked => ⟨?_, ?_⟩⟩
        · exact fun after' => hagree.eq_of_error (hgives.certain after')
        · rintro ⟨more, a, hmore, hgoes⟩
          refine ⟨more, a, hmore, fun rest hbreaks => ?_⟩
          have hread : h (t :: (later ++ more ++ rest)) = .ok (a, rest) := by
            simpa using hgoes rest hbreaks
          simpa using hagree.eq_of_ok hread fun _ => .inr hbreaks
        · obtain ⟨more, target, hmore, hread⟩ := hunmarked.found
          exact ⟨more, target, hmore, fun rest hbreaks => hagree.eq_of_error (hread rest hbreaks)⟩
        · intro rest a hread
          rcases hagree (later ++ rest) with heq | ⟨-, -, b, hstop⟩
          · exact hunmarked.hopeless rest a (heq.symm.trans hread)
          · exact hunmarked.hopeless rest _ hstop

theorem head?_append_of_ne_nil
    {first : List Token} (hfirst : first ≠ []) (rest rest' : List Token) :
    (first ++ rest').head? = (first ++ rest).head? := by
  obtain ⟨t, later, rfl⟩ := List.exists_cons_of_ne_nil hfirst
  rfl

theorem head?_append_cons (before : List Token) (t : Token) (after after' : List Token) :
    (before ++ t :: after').head? = (before ++ t :: after).head? := by
  simp [List.head?_append]

/-- One function after the other.  Where the second one fails at once, the first one may stop
earlier than it did. -/
theorem Predictive.bind_of_free
    {next : α × List Token → Reading β} (hf : Predictive free f ts)
    (hnext : ∀ a rest, f ts = .ok (a, rest) → Predictive free' (fun rest => next (a, rest)) rest)
    (hresumes : ∀ a, Resumes fun rest => next (a, rest)) (hfree : ∀ rest, free' rest → free rest)
    (hfails : ∀ a rest failure, next (a, rest) = .error failure → free rest) :
    Predictive free' (fun rest => (f rest).bind next) ts where
  ok := by
    intro b last hread hend
    obtain ⟨⟨a, rest⟩, hfirst, hsecond⟩ := bind_eq_ok.mp hread
    obtain ⟨hrest, used, rfl, htakes⟩ := hf.ok hfirst hend
    obtain ⟨hlast, more, rfl, hmore⟩ := (hnext a rest hfirst).ok hsecond hrest
    refine ⟨hlast, used ++ more, by simp, ?_, ?_⟩
    · intro last' hhead
      have hheads : (more ++ last').head? = (more ++ last).head? := by
        simp [List.head?_append, hhead]
      simp only [List.append_assoc, htakes.same _ hheads, Except.bind, hmore.same last' hhead]
    · intro hfree' last' hbreaks
      have hagain : f (used ++ (more ++ last')) = .ok (a, more ++ last') := by
        by_cases hnil : more = []
        · subst hnil
          exact htakes.broken (hfree _ hfree') last' hbreaks
        · exact htakes.same _ (head?_append_of_ne_nil hnil last last')
      simp only [List.append_assoc, hagain, Except.bind, hmore.broken hfree' last' hbreaks]
  error := by
    intro e hread hend
    rcases bind_eq_error.mp hread with hfirst | ⟨⟨a, rest⟩, hfirst, hsecond⟩
    · obtain ⟨before, after, rfl, hgives⟩ := hf.error hfirst hend
      refine ⟨before, after, rfl, fun after' => ?_,
        hgives.completable.imp (·.bind hresumes) (·.bind next)⟩
      simp only [hgives.certain after', Except.bind]
    · obtain ⟨hrest, used, rfl, htakes⟩ := hf.ok hfirst hend
      have hfreeRest := hfails a rest _ hsecond
      obtain ⟨before, after, rfl, hgives⟩ := (hnext a rest hfirst).error hsecond hrest
      refine ⟨used ++ before, after, by simp, ?_, ?_⟩
      · intro after'
        have hheads := head?_append_cons before e.token after after'
        simp only [List.append_assoc, htakes.same _ hheads, Except.bind, hgives.certain after']
      · by_cases hnil : before = []
        · subst hnil
          obtain ⟨more, b, hmore, hgoes⟩ := hresumes a
          refine .inl ⟨more, b, hmore, fun rest' hbreaks => ?_⟩
          obtain ⟨hbroken, hlast⟩ := hgoes rest' hbreaks
          simp only [List.append_nil, htakes.broken hfreeRest _ hbroken, Except.bind, hlast]
        · have hagain (rest') :
              (f (used ++ before ++ rest')).bind next = next (a, before ++ rest') := by
            have hheads := head?_append_of_ne_nil hnil (e.token :: after) rest'
            simp only [List.append_assoc, htakes.same _ hheads, Except.bind]
          simpa only [hagain] using hgives.completable

theorem Predictive.map
    (hf : Predictive free f ts) (k : α → β) :
    Predictive free (fun rest => (f rest).bind fun found => .ok (k found.1, found.2)) ts := by
  apply hf.bind_of_free
  · exact fun a rest _ => predictive_done (k a)
  · exact fun a => resumes_done (k a)
  · exact fun _ => id
  · exact fun a rest failure herror => by cases herror

/-- A function after which it is found that a variable lacks its sigil. -/
theorem Predictive.unmarked (hf : Predictive free f ts) (target : Token) :
    Predictive free' (fun rest => (f rest).bind fun _ => (.error (.noSigil target) : Reading β))
      ts where
  ok := by
    intro b rest hread
    obtain ⟨found, -, hdone⟩ := bind_eq_ok.mp hread
    cases hdone
  error := by
    intro e hread hend
    rcases bind_eq_error.mp hread with hfirst | ⟨found, -, hdone⟩
    · obtain ⟨before, after, rfl, hgives⟩ := hf.error hfirst hend
      refine ⟨before, after, rfl, fun after' => ?_,
        .inr (hgives.completable.elim (·.unmarked target) (·.bind _))⟩
      simp only [hgives.certain after', Except.bind]
    · cases hdone

/-- Every rest. -/
def Anywhere (_ : List Token) : Prop := True

/-- After a function that can stop anywhere. -/
theorem Predictive.bind
    {next : α × List Token → Reading β} (hf : Predictive Anywhere f ts)
    (hnext : ∀ a rest, f ts = .ok (a, rest) → Predictive free (fun rest => next (a, rest)) rest)
    (hresumes : ∀ a, Resumes fun rest => next (a, rest)) :
    Predictive free (fun rest => (f rest).bind next) ts :=
  hf.bind_of_free hnext hresumes (fun _ _ => trivial) (fun _ _ _ _ => trivial)

end Combining

/-- The functions are known without the proof that they leave fewer tokens, and their induction
hypotheses speak of rests with that proof. -/
theorem forall_of_plain
    {α : Type} {p : List Token → Prop} {x : Except ParseFailure (α × Subtype p)}
    {P : α → List Token → Prop} (h : ∀ a (rest : Subtype p), P a rest.val) :
    ∀ a rest, plain x = .ok (a, rest) → P a rest := by
  intro a rest hread
  obtain ⟨found, -, rfl⟩ := exists_of_plain_eq_ok hread
  exact h a found

theorem length_lt_of_plain
    {α : Type} {ts rest : List Token} {x : Except ParseFailure (α × Shorter ts)} {a : α}
    (h : plain x = .ok (a, rest)) : rest.length < ts.length := by
  obtain ⟨found, -, rfl⟩ := exists_of_plain_eq_ok h
  exact found.property

theorem finishes_expect
    {α : Type} (kind : Token.Kind) (expected : Expectation) {next : Token × List Token → Reading α}
    (hkind : kind ≠ .endOfFile) (hfinishes : Finishes fun rest => next (typical kind, rest)) :
    Finishes fun rest => (plain (expect kind expected rest)).bind next := by
  apply finishes_typical hkind
  simpa [plain_expect_cons, Except.bind] using hfinishes

/-- A token of a kind is read and then something else. -/
theorem predictive_expect
    {α : Type} {free : List Token → Prop} (kind : Token.Kind) (expected : Expectation)
    {next : Token × List Token → Reading α} (hkind : kind ≠ .endOfFile) (ts : List Token)
    (hnext : ∀ t rest, Predictive free (fun rest => next (t, rest)) rest)
    (hfinishes : Finishes fun rest => next (typical kind, rest)) :
    Predictive free (fun rest => (plain (expect kind expected rest)).bind next) ts := by
  cases ts with
  | nil => exact predictive_nil
  | cons t later =>
      by_cases ht : t.kind = kind
      · apply (hnext t later).cons (by rwa [ht])
        intro rest
        rw [plain_expect_cons, if_pos ht]
        rfl
      · apply predictive_error expected
        · intro rest
          rw [plain_expect_cons, if_neg ht]
          rfl
        · exact finishes_expect kind expected hkind hfinishes

end Slang.Parser
