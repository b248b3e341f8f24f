import Mathlib.Tactic
import Routn.Http.Http11Table

/-!
# The machine `httpclient_parser`

What the generated file `httpclient_parser.rl.cpp` runs.  As in the file a `case` tries its single
characters before its ranges, so that the letters of a keyword stand in front of the set that they
belong to.
-/

namespace Routn
namespace Http
namespace Client

open Foundation Machine.Goto
open Machine (Case Goto narrow one digit xdigit)

/-- The actions of `httpclient_parser.rl`. -/
inductive Action
  | mark
  | startField
  | writeField
  | startValue
  | writeContentLen
  | writeConnectionClose
  | writeValue
  | reasonPhrase
  | statusCode
  | httpVersion
  | chunkSize
  | transChunked
  | done
deriving DecidableEq, Repr

def httpclientParserStart : Nat := 1

def httpclientParserFirstFinal : Nat := 120

def httpclientParserError : Nat := 0

section Table

/-- The blocks `trN:`, with the state each falls into or goes to. -/
def block : Nat → List Action × Nat
  | 0 => ([.mark], 2)
  | 2 => ([.mark], 8)
  | 3 => ([.chunkSize, .done], 120)
  | 4 => ([.chunkSize], 3)
  | 6 => ([.chunkSize], 4)
  | 7 => ([.done], 120)
  | 8 => ([.startField], 5)
  | 9 => ([.writeField, .startValue, .writeValue, .done], 120)
  | 10 => ([.writeField, .startValue, .writeValue], 3)
  | 12 => ([.writeField, .startValue, .writeValue], 4)
  | 13 => ([.writeField, .startValue], 6)
  | 14 => ([.startValue], 7)
  | 15 => ([.writeValue, .done], 120)
  | 16 => ([.writeValue], 3)
  | 18 => ([.writeValue], 4)
  | 26 => ([.httpVersion], 16)
  | 27 => ([.mark], 17)
  | 28 => ([.statusCode], 18)
  | 30 => ([.mark], 19)
  | 32 => ([.reasonPhrase], 20)
  | 33 => ([.reasonPhrase], 24)
  | 35 => ([.startField], 21)
  | 36 => ([.startField], 25)
  | 37 => ([.startField], 44)
  | 39 => ([.writeField], 22)
  | 40 => ([.startValue], 23)
  | 41 => ([.startValue], 22)
  | 42 => ([.startValue, .writeValue], 20)
  | 43 => ([.startValue, .writeValue], 24)
  | 45 => ([.writeValue], 20)
  | 46 => ([.writeValue], 24)
  | 58 => ([.writeField], 35)
  | 59 => ([.startValue], 35)
  | 60 => ([.startValue, .writeValue], 36)
  | 61 => ([.startValue, .writeValue], 95)
  | 62 => ([.startValue], 96)
  | 64 => ([.done], 122)
  | 66 => ([.startField], 90)
  | 74 => ([.writeConnectionClose, .done], 120)
  | 75 => ([.writeConnectionClose], 3)
  | 76 => ([.writeConnectionClose, .startField], 21)
  | 77 => ([.writeConnectionClose, .startField], 25)
  | 78 => ([.writeConnectionClose, .startField], 44)
  | 95 => ([.writeField], 61)
  | 96 => ([.startValue], 61)
  | 97 => ([.startValue, .writeValue], 62)
  | 98 => ([.startValue, .writeValue], 80)
  | 99 => ([.startValue], 81)
  | 101 => ([.done], 121)
  | 103 => ([.startValue, .startField], 73)
  | 104 => ([.startValue], 64)
  | 111 => ([.writeValue, .transChunked], 20)
  | 112 => ([.writeValue], 71)
  | 113 => ([.transChunked], 20)
  | 136 => ([.writeValue], 43)
  | 137 => ([.writeValue], 88)
  | 148 => ([.writeField], 112)
  | 149 => ([.startValue], 112)
  | 150 => ([.startValue, .writeValue], 113)
  | 151 => ([.startValue, .writeValue], 118)
  | 152 => ([.startValue], 119)
  | 154 => ([.done], 123)
  | 156 => ([.startValue, .startField], 117)
  | 157 => ([.startValue], 115)
  | 158 => ([.writeContentLen, .writeValue], 20)
  | 159 => ([.writeContentLen, .writeValue], 24)
  | _ => ([], 0)

/-- A letter in both cases. -/
def letter (upper : Int) : List (Int × Int) := [(upper, upper), (upper + 32, upper + 32)]

def token : List (Int × Int) :=
  [(33, 33), (35, 39), (42, 43), (45, 46), (48, 57), (65, 90), (94, 122), (124, 124), (126, 126)]

def any : List (Int × Int) := [(-128, 127)]

def blank : List (Int × Int) := [(9, 9), (11, 12), (32, 32)]

def space : List (Int × Int) := [(9, 13), (32, 32)]

/-- The cases of the `switch`. -/
def cases : List (Nat × Case) := [
  (1, narrow [(one 72, tr 2), (xdigit, tr 0)]),
  (2, narrow [(one 10, tr 3), (one 13, tr 4), (one 59, tr 6), (xdigit, st 2)]),
  (3, narrow [(one 10, tr 7)]),
  (4, narrow [(token, tr 8)]),
  (5, narrow [(one 10, tr 9), (one 13, tr 10), (one 59, tr 12), (one 61, tr 13), (token, st 5)]),
  (6, narrow [(token, tr 14)]),
  (7, narrow [(one 10, tr 15), (one 13, tr 16), (one 59, tr 18), (token, st 7)]),
  (8, narrow [(one 84, st 9)]),
  (9, narrow [(one 84, st 10)]),
  (10, narrow [(one 80, st 11)]),
  (11, narrow [(one 47, st 12)]),
  (12, narrow [(digit, st 13)]),
  (13, narrow [(one 46, st 14), (digit, st 13)]),
  (14, narrow [(digit, st 15)]),
  (15, narrow [(one 32, tr 26), (digit, st 15)]),
  (16, narrow [(digit, tr 27)]),
  (17, narrow [(one 32, tr 28), (digit, st 17)]),
  (18, narrow [([(-128, 9), (11, 127)], tr 30)]),
  (19, narrow [(one 10, tr 32), (one 13, tr 33), (any, st 19)]),
  (20, narrow [(one 10, tr 7), (one 13, st 3), (letter 67, tr 36), (letter 84, tr 37),
    (token, tr 35)]),
  (21, narrow [(one 58, tr 39), (token, st 21)]),
  (22, narrow [(one 10, tr 42), (one 13, tr 43), (blank, tr 41), (any, tr 40)]),
  (23, narrow [(one 10, tr 45), (one 13, tr 46), (any, st 23)]),
  (24, narrow [(one 10, st 20)]),
  (25, narrow [(one 58, tr 39), (letter 79, st 26), (token, st 21)]),
  (26, narrow [(one 58, tr 39), (letter 78, st 27), (token, st 21)]),
  (27, narrow [(one 58, tr 39), (letter 78, st 28), (letter 84, st 101), (token, st 21)]),
  (28, narrow [(one 58, tr 39), (letter 69, st 29), (token, st 21)]),
  (29, narrow [(one 58, tr 39), (letter 67, st 30), (token, st 21)]),
  (30, narrow [(one 58, tr 39), (letter 84, st 31), (token, st 21)]),
  (31, narrow [(one 58, tr 39), (letter 73, st 32), (token, st 21)]),
  (32, narrow [(one 58, tr 39), (letter 79, st 33), (token, st 21)]),
  (33, narrow [(one 58, tr 39), (letter 78, st 34), (token, st 21)]),
  (34, narrow [(one 58, tr 58), (token, st 21)]),
  (35, narrow [(one 10, tr 60), (one 13, tr 61), (letter 67, tr 62), (blank, tr 59),
    (any, tr 40)]),
  (36, narrow [(one 10, tr 64), (one 13, st 89), (letter 67, tr 66), (letter 84, tr 37),
    (blank, st 37), (token, tr 35)]),
  (37, narrow [(letter 67, st 38), (space, st 37)]),
  (38, narrow [(letter 76, st 39)]),
  (39, narrow [(letter 79, st 40)]),
  (40, narrow [(letter 83, st 41)]),
  (41, narrow [(letter 69, st 42)]),
  (42, narrow [(one 10, st 43), (one 13, st 88)]),
  (43, narrow [(one 10, tr 74), (one 13, tr 75), (letter 67, tr 77), (letter 84, tr 78),
    (token, tr 76)]),
  (44, narrow [(one 58, tr 39), (letter 82, st 45), (token, st 21)]),
  (45, narrow [(one 58, tr 39), (letter 65, st 46), (token, st 21)]),
  (46, narrow [(one 58, tr 39), (letter 78, st 47), (token, st 21)]),
  (47, narrow [(one 58, tr 39), (letter 83, st 48), (token, st 21)]),
  (48, narrow [(one 58, tr 39), (letter 70, st 49), (token, st 21)]),
  (49, narrow [(one 58, tr 39), (letter 69, st 50), (token, st 21)]),
  (50, narrow [(one 58, tr 39), (letter 82, st 51), (token, st 21)]),
  (51, narrow [(one 45, st 52), (one 58, tr 39), (token, st 21)]),
  (52, narrow [(one 58, tr 39), (letter 69, st 53), (token, st 21)]),
  (53, narrow [(one 58, tr 39), (letter 78, st 54), (token, st 21)]),
  (54, narrow [(one 58, tr 39), (letter 67, st 55), (token, st 21)]),
  (55, narrow [(one 58, tr 39), (letter 79, st 56), (token, st 21)]),
  (56, narrow [(one 58, tr 39), (letter 68, st 57), (token, st 21)]),
  (57, narrow [(one 58, tr 39), (letter 73, st 58), (token, st 21)]),
  (58, narrow [(one 58, tr 39), (letter 78, st 59), (token, st 21)]),
  (59, narrow [(one 58, tr 39), (letter 71, st 60), (token, st 21)]),
  (60, narrow [(one 58, tr 95), (token, st 21)]),
  (61, narrow [(one 10, tr 97), (one 13, tr 98), (letter 67, tr 99), (blank, tr 96),
    (any, tr 40)]),
  (62, narrow [(one 10, tr 101), (one 13, st 72), (letter 67, tr 103), (letter 84, tr 37),
    (blank, st 63), (token, tr 35)]),
  (63, narrow [(letter 67, tr 104), (space, st 63)]),
  (64, narrow [(letter 72, st 65)]),
  (65, narrow [(letter 85, st 66)]),
  (66, narrow [(letter 78, st 67)]),
  (67, narrow [(letter 75, st 68)]),
  (68, narrow [(letter 69, st 69)]),
  (69, narrow [(letter 68, st 70)]),
  (70, narrow [(one 10, tr 111), (one 13, tr 112)]),
  (71, narrow [(one 10, tr 113)]),
  (72, narrow [(one 10, tr 101), (letter 67, tr 104), (space, st 63)]),
  (73, narrow [(one 58, tr 39), (letter 72, st 74), (letter 79, st 26), (token, st 21)]),
  (74, narrow [(one 58, tr 39), (letter 85, st 75), (token, st 21)]),
  (75, narrow [(one 58, tr 39), (letter 78, st 76), (token, st 21)]),
  (76, narrow [(one 58, tr 39), (letter 75, st 77), (token, st 21)]),
  (77, narrow [(one 58, tr 39), (letter 69, st 78), (token, st 21)]),
  (78, narrow [(one 58, tr 39), (letter 68, st 79), (token, st 21)]),
  (79, narrow [(one 10, tr 111), (one 13, tr 112), (one 58, tr 39), (token, st 21)]),
  (80, narrow [(one 10, st 62), (letter 67, tr 104), (space, st 63)]),
  (81, narrow [(one 10, tr 45), (one 13, tr 46), (letter 72, st 82), (any, st 23)]),
  (82, narrow [(one 10, tr 45), (one 13, tr 46), (letter 85, st 83), (any, st 23)]),
  (83, narrow [(one 10, tr 45), (one 13, tr 46), (letter 78, st 84), (any, st 23)]),
  (84, narrow [(one 10, tr 45), (one 13, tr 46), (letter 75, st 85), (any, st 23)]),
  (85, narrow [(one 10, tr 45), (one 13, tr 46), (letter 69, st 86), (any, st 23)]),
  (86, narrow [(one 10, tr 45), (one 13, tr 46), (letter 68, st 87), (any, st 23)]),
  (87, narrow [(one 10, tr 111), (one 13, tr 112), (any, st 23)]),
  (88, narrow [(one 10, st 43)]),
  (89, narrow [(one 10, tr 64), (letter 67, st 38), (space, st 37)]),
  (90, narrow [(one 58, tr 39), (letter 76, st 91), (letter 79, st 26), (token, st 21)]),
  (91, narrow [(one 58, tr 39), (letter 79, st 92), (token, st 21)]),
  (92, narrow [(one 58, tr 39), (letter 83, st 93), (token, st 21)]),
  (93, narrow [(one 58, tr 39), (letter 69, st 94), (token, st 21)]),
  (94, narrow [(one 10, st 43), (one 13, st 88), (one 58, tr 39), (token, st 21)]),
  (95, narrow [(one 10, st 36), (letter 67, st 38), (space, st 37)]),
  (96, narrow [(one 10, tr 45), (one 13, tr 46), (letter 76, st 97), (any, st 23)]),
  (97, narrow [(one 10, tr 45), (one 13, tr 46), (letter 79, st 98), (any, st 23)]),
  (98, narrow [(one 10, tr 45), (one 13, tr 46), (letter 83, st 99), (any, st 23)]),
  (99, narrow [(one 10, tr 45), (one 13, tr 46), (letter 69, st 100), (any, st 23)]),
  (100, narrow [(one 10, tr 136), (one 13, tr 137), (any, st 23)]),
  (101, narrow [(one 58, tr 39), (letter 69, st 102), (token, st 21)]),
  (102, narrow [(one 58, tr 39), (letter 78, st 103), (token, st 21)]),
  (103, narrow [(one 58, tr 39), (letter 84, st 104), (token, st 21)]),
  (104, narrow [(one 45, st 105), (one 58, tr 39), (token, st 21)]),
  (105, narrow [(one 58, tr 39), (letter 76, st 106), (token, st 21)]),
  (106, narrow [(one 58, tr 39), (letter 69, st 107), (token, st 21)]),
  (107, narrow [(one 58, tr 39), (letter 78, st 108), (token, st 21)]),
  (108, narrow [(one 58, tr 39), (letter 71, st 109), (token, st 21)]),
  (109, narrow [(one 58, tr 39), (letter 84, st 110), (token, st 21)]),
  (110, narrow [(one 58, tr 39), (letter 72, st 111), (token, st 21)]),
  (111, narrow [(one 58, tr 148), (token, st 21)]),
  (112, narrow [(one 10, tr 150), (one 13, tr 151), (blank, tr 149), (digit, tr 152),
    (any, tr 40)]),
  (113, narrow [(one 10, tr 154), (one 13, st 116), (letter 67, tr 36), (letter 84, tr 37),
    (blank, st 114), (digit, tr 156), (token, tr 35)]),
  (114, narrow [(space, st 114), (digit, tr 157)]),
  (115, narrow [(one 10, tr 158), (one 13, tr 159), (digit, st 115)]),
  (116, narrow [(one 10, tr 154), (space, st 114), (digit, tr 157)]),
  (117, narrow [(one 10, tr 158), (one 13, tr 159), (one 58, tr 39), (digit, st 117),
    (token, st 21)]),
  (118, narrow [(one 10, st 113), (space, st 114), (digit, tr 157)]),
  (119, narrow [(one 10, tr 158), (one 13, tr 159), (digit, st 119), (any, st 23)]),
  (120, narrow []),
  (121, narrow [(letter 67, tr 104), (space, st 63)]),
  (122, narrow [(letter 67, st 38), (space, st 37)]),
  (123, narrow [(space, st 114), (digit, tr 157)])]

end Table

/-! ## Running it -/

/-- What `stN:` and `trN:` do and where they end. -/
def target : Goto → List Action × Nat
  | .st n => ([], n)
  | .tr n => block n

/-- The actions on a character, and the next state. -/
def next (cs : Nat) (c : UInt8) : Option (List Action × Nat) :=
  (cases.lookup cs).bind fun row => (row.goto false c).map target

/-- The machine.  The action `done` breaks, and it is in each block that enters a final state. -/
def control : Control Nat UInt8 Action where
  next := next
  halts := fun cs => cs == httpclientParserError || decide (httpclientParserFirstFinal ≤ cs)
  refused := httpclientParserError
  halts_refused := rfl

/-- A character that has a transition takes an edge of the row of its state. -/
theorem edge_of_next {cs cs' : Nat} {c : UInt8} {actions : List Action}
    (hnext : next cs c = some (actions, cs')) :
    ∃ row edge, (cs, row) ∈ cases ∧ edge ∈ row.edges ∧ target edge.2 = (actions, cs') ∧
      Machine.covers (row.key false c) edge = true := by
  obtain ⟨row, hrow, hgoto⟩ := Option.bind_eq_some_iff.mp hnext
  obtain ⟨goto, hfound, htarget⟩ := Option.map_eq_some_iff.mp hgoto
  obtain ⟨edge, hedge, rfl⟩ := Option.map_eq_some_iff.mp hfound
  obtain ⟨before, rest, hsplit, -⟩ := List.lookup_eq_some_iff.mp hrow
  have hmem : (cs, row) ∈ cases := by
    rw [hsplit]
    exact List.mem_append_right _ List.mem_cons_self
  exact ⟨row, edge, hmem, List.mem_of_find?_eq_some hedge, htarget, List.find?_some hedge⟩

/-- The actions of one row lead to a final state exactly when `done` is among them. -/
def rowBreaks (row : Nat × Case) : Bool :=
  row.2.edges.all fun edge =>
    decide (httpclientParserFirstFinal ≤ (target edge.2).2) == (target edge.2).1.contains .done

theorem cases_break : cases.all rowBreaks = true := by decide +kernel

/-- **A final state is entered exactly by `done`.** -/
theorem final_iff_done {cs cs' : Nat} {c : UInt8} {actions : List Action}
    (hnext : next cs c = some (actions, cs')) :
    httpclientParserFirstFinal ≤ cs' ↔ Action.done ∈ actions := by
  obtain ⟨row, edge, hrow, hedge, htarget, -⟩ := edge_of_next hnext
  have hbreaks : decide (httpclientParserFirstFinal ≤ (target edge.2).2) =
      (target edge.2).1.contains .done :=
    beq_iff_eq.mp (List.all_eq_true.mp (List.all_eq_true.mp cases_break _ hrow) _ hedge)
  rw [htarget] at hbreaks
  rw [← List.contains_iff_mem, ← hbreaks, decide_eq_true_iff]

end Client
end Http
end Routn
