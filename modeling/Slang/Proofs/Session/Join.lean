import Slang.Proofs.Grammar.Sequence
import Slang.Proofs.Run.Lines
import Slang.Proofs.Run.Sequence
import Slang.Proofs.Session.Report
import Slang.Proofs.Token.Join

/-!
# Two units as one

Running two source texts one after the other does what running them as one text does, where a line
break stands between them.  The second one must not be able to go on with the first: no text, no
comment and no block is open at the end of the first one, and the second one does not start with a
minus.  An error that the second one reports is about a later line of the joined text.
-/

namespace Slang

open Grammar

/-! ## Programs in a row -/

namespace Session

variable (settings : Settings) (session : Session)

theorem fault_eq_none_of_ok
    {settings : Settings} {session : Session} {program : List Node}
    (h : (session.runProgram settings program).ok = true) :
    (Node.execAll settings program session.state).fault = none := by
  cases hfault : (Node.execAll settings program session.state).fault with
  | none => rfl
  | some fault => simp [runProgram, hfault, fail] at h

theorem runProgram_append
    {first : List Node} (hok : (session.runProgram settings first).ok = true) (later : List Node) :
    let one := session.runProgram settings first
    let two := one.session.runProgram settings later
    let both := session.runProgram settings (first ++ later)
    both.session = two.session ∧ both.ok = two.ok ∧ both.printed = one.printed ++ two.printed := by
  have hfirst := fault_eq_none_of_ok hok
  have hboth := Node.execAll_append settings first later session.state
  rw [Outcome.andThen_of_fault_eq_none hfirst] at hboth
  simp only [runProgram, hboth, hfirst]
  cases (Node.execAll settings later (Node.execAll settings first session.state).state).fault with
  | none => exact ⟨rfl, rfl, rfl⟩
  | some fault => simp [fail]

theorem runProgram_moved (f : Nat → Nat) (program : List Node) :
    let step := session.runProgram settings program
    let moved := session.runProgram settings (Node.movedAll f program)
    moved.session = step.session ∧ moved.ok = step.ok ∧
      moved.printed = step.printed.map (Printed.moved f) := by
  simp only [runProgram, Node.execAll_moved, Outcome.moved]
  cases (Node.execAll settings program session.state).fault with
  | none => exact ⟨rfl, rfl, rfl⟩
  | some fault => simp [fail, Printed.moved, Failure.ofFault_moved]

end Session

/-! ## Source texts in a row -/

theorem Scan.hasEnd_ofSource (source : String) : Parser.HasEnd (ofSource source).tokens := by
  obtain ⟨body, last, htokens, hlast, -⟩ := exists_ofSource_eq source
  exact ⟨last, by simp [htokens], hlast⟩

/-- The joined text is parsed as the statements of the first text and then, on later lines, those of
the second. -/
theorem program_join
    {first second : String} {one two : List Node} (hfirst : (Scan.ofSource first).IsClosed)
    (hone : Parser.program (Scan.ofSource first).tokens = .ok one)
    (htwo : Parser.program (Scan.ofSource second).tokens = .ok two)
    (hclosed : SpellsAll one (Scan.ofSource first).tokens.dropLast)
    (hminus : ∀ t ∈ (Scan.ofSource second).tokens.head?, t.kind ≠ .minus) :
    Parser.program (Scan.ofSource (first ++ "\n" ++ second)).tokens =
      .ok (one ++ Node.movedAll (· + (1 + first.toList.count '\n')) two) := by
  rw [Scan.ofSource_join hfirst second]
  have hread := Parser.program_moved (· + (1 + first.toList.count '\n'))
    (Scan.hasEnd_ofSource second)
  rw [htwo] at hread
  apply program_append (spelled_of_program _ one hone).1 hclosed hread
  intro t ht
  rw [List.head?_map, Option.mem_map] at ht
  obtain ⟨t, ht, rfl⟩ := ht
  exact hminus t ht

theorem diagnostics_join
    {first second : String} (hfirst : (Scan.ofSource first).diagnostics = [])
    (hsecond : (Scan.ofSource second).diagnostics = []) :
    (Scan.ofSource (first ++ "\n" ++ second)).diagnostics = [] := by
  rw [Scan.ofSource_join (by simp [Scan.IsClosed, hfirst]) second]
  simp [hfirst, hsecond]

/-- Two texts that scan without warnings run one after the other as they do in one text, where the
second one stands on later lines.  They leave the same session and the same result, and they print
the same, but for the line of an error that the second text reports. -/
theorem runSource_one_after_other_eq_joined
    (settings : Settings) (session : Session) {first second : String} {one two : List Node}
    (hfirst : (Scan.ofSource first).diagnostics = [])
    (hsecond : (Scan.ofSource second).diagnostics = [])
    (hone : Parser.program (Scan.ofSource first).tokens = .ok one)
    (htwo : Parser.program (Scan.ofSource second).tokens = .ok two)
    (hclosed : SpellsAll one (Scan.ofSource first).tokens.dropLast)
    (hminus : ∀ t ∈ (Scan.ofSource second).tokens.head?, t.kind ≠ .minus)
    (hok : (session.runSource settings first).ok = true) :
    let before := session.runSource settings first
    let after := before.session.runSource settings second
    let joined := session.runSource settings (first ++ "\n" ++ second)
    joined.session = after.session ∧ joined.ok = after.ok ∧
      joined.printed = before.printed ++
        after.printed.map (Printed.moved (· + (1 + first.toList.count '\n'))) := by
  intro before after joined
  have hscan : (Scan.ofSource first).IsClosed := by simp [Scan.IsClosed, hfirst]
  have hjoined := program_join hscan hone htwo hclosed hminus
  -- All three texts are parsed, so their runs are runs of programs.
  obtain ⟨hbefore, hbeforeOk, hbeforePrinted⟩ := Session.runSource_of_program hone settings session
  obtain ⟨hafter, hafterOk, hafterPrinted⟩ :=
    Session.runSource_of_program htwo settings before.session
  obtain ⟨hboth, hbothOk, hbothPrinted⟩ := Session.runSource_of_program hjoined settings session
  rw [hfirst, List.map_nil, List.nil_append] at hbeforePrinted
  rw [hsecond, List.map_nil, List.nil_append] at hafterPrinted
  rw [diagnostics_join hfirst hsecond, List.map_nil, List.nil_append] at hbothPrinted
  obtain ⟨hsession, hresult, hprinted⟩ :=
    Session.runProgram_append settings session (hbeforeOk ▸ hok)
      (Node.movedAll (· + (1 + first.toList.count '\n')) two)
  rw [← hbefore] at hsession hresult hprinted
  obtain ⟨hsession', hresult', hprinted'⟩ :=
    Session.runProgram_moved settings before.session (· + (1 + first.toList.count '\n')) two
  refine ⟨?_, ?_, ?_⟩
  · exact hboth.trans (hsession.trans (hsession'.trans hafter.symm))
  · exact hbothOk.trans (hresult.trans (hresult'.trans hafterOk.symm))
  · calc
      joined.printed = (session.runProgram settings one).printed ++ _ := hbothPrinted.trans hprinted
      _ = before.printed ++ _ := by rw [← hbeforePrinted, hprinted', ← hafterPrinted]

namespace Sample

/-- A text on three lines with a block that is closed. -/
def closedBlock : String := ":\n  spill fr\nend"

/-- The value that is printed in the block. -/
def truth : Token := ⟨.fr, "fr", .absent, 2⟩

/-- A text that fails on its first line, because nothing is bound to its variable. -/
def unbound : String := "spill x"

/-- The session before both texts. -/
def fresh : Session := .start ""

/-- The settings of a run from a file without a trace. -/
def silent : Settings := ⟨false, 0⟩

theorem program_closedBlock :
    Parser.program (Scan.ofSource closedBlock).tokens =
      .ok [.block [.spill (.boolean truth.mark)]] := by
  cbv

theorem program_unbound :
    Parser.program (Scan.ofSource unbound).tokens =
      .ok [.spill (.identifier ⟨.identifier, .text "x", .null, .integer 1⟩)] := by
  cbv

theorem spellsAll_closedBlock :
    SpellsAll [.block [.spill (.boolean truth.mark)]]
      (Scan.ofSource closedBlock).tokens.dropLast := by
  have htokens : (Scan.ofSource closedBlock).tokens.dropLast =
      [⟨.colon, ":", .absent, 1⟩, ⟨.spill, "spill", .absent, 2⟩, truth,
        ⟨.endWord, "end", .absent, 3⟩] := by decide +kernel
  have hspill : Spells (.spill (.boolean truth.mark)) [⟨.spill, "spill", .absent, 2⟩, truth] :=
    .spill rfl (.boolean (.inl rfl))
  have hblock : Spells (.block [.spill (.boolean truth.mark)])
      (⟨.colon, ":", .absent, 1⟩ :: ([⟨.spill, "spill", .absent, 2⟩, truth] ++ [] ++
        [⟨.endWord, "end", .absent, 3⟩])) :=
    .block rfl (.inl rfl) (.cons hspill .nil)
  rw [htokens]
  exact .cons hblock .nil

end Sample

theorem runSource_one_after_other_eq_joined_block :
    let before := Sample.fresh.runSource Sample.silent Sample.closedBlock
    let after := before.session.runSource Sample.silent Sample.unbound
    let joined :=
      Sample.fresh.runSource Sample.silent (Sample.closedBlock ++ "\n" ++ Sample.unbound)
    before.ok = true ∧ after.ok = false ∧
      joined.session = after.session ∧ joined.ok = after.ok ∧
      joined.printed = before.printed ++
        after.printed.map (Printed.moved (· + (1 + Sample.closedBlock.toList.count '\n'))) := by
  intro before after joined
  have hok : before.ok = true :=
    (Session.runSource_of_program Sample.program_closedBlock Sample.silent Sample.fresh).2.1
  have hsession : before.session = Sample.fresh :=
    (Session.runSource_of_program Sample.program_closedBlock Sample.silent Sample.fresh).1
  have hfails : after.ok = false := by
    have hafter :=
      (Session.runSource_of_program Sample.program_unbound Sample.silent before.session).2.1
    exact hafter.trans (by rw [hsession]; rfl)
  exact ⟨hok, hfails, runSource_one_after_other_eq_joined Sample.silent Sample.fresh
    (by decide +kernel) (by decide +kernel) Sample.program_closedBlock Sample.program_unbound
    Sample.spellsAll_closedBlock (by decide +kernel) hok⟩

end Slang
