import Mathlib.Tactic
import Routn.Foundation.Control

/-!
# The machine `http_parser`

What the generated file `http11_parser.rl.cpp` runs: each `case N:` compares the character with
ranges and goes to a block `trN:` of actions or to a state `stN:`, and to `st0`, the error, when no
range holds it.  A case that computes `_widec` tells the characters `^`, `{` and `}` apart by
`uri_relaxed`: 606, 635 and 637 are these three with the flag set.
-/

namespace Routn
namespace Http
namespace Machine

open Foundation

/-- The actions of `http11_parser.rl`. -/
inductive Action
  | mark
  | startField
  | writeField
  | startValue
  | writeValue
  | requestMethod
  | requestUri
  | fragment
  | startQuery
  | queryString
  | httpVersion
  | requestPath
  | done
  | xml
  | json
deriving DecidableEq, Repr

/-- Where a `goto` leads. -/
inductive Goto
  | st (n : Nat)
  | tr (n : Nat)
deriving DecidableEq, Repr

/-- One `case`: whether it computes `_widec`, and its ranges. -/
structure Case where
  computesWidec : Bool
  edges : List (List (Int × Int) × Goto)
deriving DecidableEq, Repr

def httpParserStart : Nat := 1

def httpParserFirstFinal : Nat := 348

def httpParserError : Nat := 0

section Table

def narrow (edges : List (List (Int × Int) × Goto)) : Case := ⟨false, edges⟩

def wide (edges : List (List (Int × Int) × Goto)) : Case := ⟨true, edges⟩

def one (k : Int) : List (Int × Int) := [(k, k)]

open Goto

/-- The blocks `trN:`, with the state each falls into or goes to. -/
def block : Nat → List Action × Nat
  | 0 => ([.mark], 2)
  | 2 => ([.mark], 194)
  | 3 => ([.mark], 198)
  | 4 => ([.requestMethod], 3)
  | 6 => ([.mark, .requestPath, .requestUri], 4)
  | 7 => ([.mark], 19)
  | 8 => ([.mark, .requestPath, .requestUri], 20)
  | 9 => ([.mark], 24)
  | 10 => ([.mark], 33)
  | 11 => ([.mark, .requestPath], 29)
  | 12 => ([.mark], 173)
  | 13 => ([.mark], 5)
  | 21 => ([.httpVersion], 13)
  | 22 => ([.httpVersion], 17)
  | 23 => ([.startField], 14)
  | 24 => ([.startField, .done], 348)
  | 25 => ([.startField], 18)
  | 27 => ([.writeField], 15)
  | 28 => ([.startValue], 16)
  | 29 => ([.startValue], 15)
  | 30 => ([.startValue, .writeValue], 13)
  | 31 => ([.startValue, .writeValue], 17)
  | 33 => ([.writeValue], 13)
  | 34 => ([.writeValue], 17)
  | 36 => ([.done], 348)
  | 37 => ([.requestPath, .requestUri], 4)
  | 39 => ([.requestPath, .requestUri], 20)
  | 42 => ([.requestPath], 29)
  | 43 => ([.mark, .fragment], 4)
  | 44 => ([.mark], 21)
  | 45 => ([.mark], 22)
  | 46 => ([.fragment], 4)
  | 53 => ([.startQuery, .queryString, .requestUri], 4)
  | 54 => ([.startQuery], 30)
  | 55 => ([.startQuery, .queryString, .requestUri], 20)
  | 56 => ([.startQuery], 31)
  | 57 => ([.queryString, .requestUri], 4)
  | 59 => ([.queryString, .requestUri], 20)
  | 203 => ([.mark], 26)
  | 204 => ([.mark], 27)
  | 224 => ([.requestPath], 196)
  | 227 => ([.xml, .done], 349)
  | 228 => ([.requestPath], 199)
  | 232 => ([.mark], 200)
  | 235 => ([.json, .done], 349)
  | _ => ([], 0)

/-! The sets of characters that come back. -/

def xdigit : List (Int × Int) :=
  [(48, 57), (65, 70), (97, 102)]

def xalpha : List (Int × Int) :=
  [(65, 70), (97, 102)]

def methodChar : List (Int × Int) :=
  [(48, 57), (65, 90)]

def digit : List (Int × Int) :=
  [(48, 57)]

def tokenStart : List (Int × Int) :=
  [(1, 8), (11, 12), (14, 31), (33, 33), (35, 39), (42, 43), (45, 46), (48, 57), (65, 90),
    (94, 122), (124, 124), (126, 126)]

def token : List (Int × Int) :=
  [(1, 8), (10, 31), (33, 33), (35, 39), (42, 43), (45, 46), (48, 57), (65, 90), (94, 122),
    (124, 124), (126, 126)]

def regName : List (Int × Int) :=
  [(33, 33), (36, 36), (38, 46), (48, 57), (59, 59), (61, 61), (65, 90), (95, 95), (97, 122),
    (126, 126), (606, 606), (635, 635), (637, 637)]

def userinfo : List (Int × Int) :=
  [(33, 33), (36, 36), (38, 46), (48, 59), (61, 61), (65, 90), (95, 95), (97, 122), (126, 126),
    (606, 606), (635, 635), (637, 637)]

def query : List (Int × Int) :=
  [(33, 33), (36, 36), (38, 59), (61, 61), (63, 90), (95, 95), (97, 122), (126, 126),
    (606, 606), (635, 635), (637, 637)]

def segmentNzNc : List (Int × Int) :=
  [(33, 33), (36, 36), (38, 46), (48, 57), (59, 59), (61, 61), (64, 90), (95, 95), (97, 122),
    (126, 126), (606, 606), (635, 635), (637, 637)]

def pchar : List (Int × Int) :=
  [(33, 33), (36, 36), (38, 46), (48, 59), (61, 61), (64, 90), (95, 95), (97, 122), (126, 126),
    (606, 606), (635, 635), (637, 637)]

def path : List (Int × Int) :=
  [(33, 33), (36, 36), (38, 59), (61, 61), (64, 90), (95, 95), (97, 122), (126, 126),
    (606, 606), (635, 635), (637, 637)]

/-- The cases of the `switch`. -/
def cases : List (Nat × Case) := [
  (1, narrow [(methodChar, tr 0), (one 60, tr 2), (one 64, tr 3)]),
  (2, narrow [(one 32, tr 4), (methodChar, st 175)]),
  (3, wide [(one 32, tr 6),
    ([(33, 33), (36, 36), (38, 46), (48, 57), (59, 59), (61, 61), (64, 64), (95, 95),
      (126, 126), (606, 606), (635, 635), (637, 637)], tr 7), (one 35, tr 8), (one 37, tr 9),
    (one 47, tr 10), (one 63, tr 11), ([(65, 90), (97, 122)], tr 12)]),
  (4, narrow [(one 72, tr 13)]),
  (5, narrow [(one 84, st 6)]),
  (6, narrow [(one 84, st 7)]),
  (7, narrow [(one 80, st 8)]),
  (8, narrow [(one 47, st 9)]),
  (9, narrow [(one 49, st 10)]),
  (10, narrow [(one 46, st 11)]),
  (11, narrow [([(48, 49)], st 12)]),
  (12, narrow [(one 10, tr 21), (one 13, tr 22)]),
  (13, narrow [(tokenStart, tr 23), (one 10, tr 24), (one 13, tr 25)]),
  (14, narrow [(token, st 14), (one 58, tr 27)]),
  (15, narrow [([(-128, -1), (1, 8), (11, 12), (14, 31), (33, 126)], tr 28),
    ([(9, 9), (32, 32)], tr 29), (one 10, tr 30), (one 13, tr 31)]),
  (16, narrow [([(-128, -1), (1, 9), (11, 12), (14, 126)], st 16), (one 10, tr 33),
    (one 13, tr 34)]),
  (17, narrow [(one 10, st 13)]),
  (18, narrow [([(1, 8), (11, 31), (33, 33), (35, 39), (42, 43), (45, 46), (48, 57), (65, 90),
      (94, 122), (124, 124), (126, 126)], st 14), (one 10, tr 36), (one 58, tr 27)]),
  (19, wide [(one 32, tr 37), (segmentNzNc, st 19), (one 35, tr 39), (one 37, st 24),
    (one 47, st 26), (one 63, tr 42)]),
  (20, wide [(one 32, tr 43), (query, tr 44), (one 37, tr 45)]),
  (21, wide [(one 32, tr 46), (query, st 21), (one 37, st 22)]),
  (22, narrow [(xdigit, st 23)]),
  (23, narrow [(xdigit, st 21)]),
  (24, narrow [(xdigit, st 25)]),
  (25, narrow [(xdigit, st 19)]),
  (26, wide [(one 32, tr 37), (path, st 26), (one 35, tr 39), (one 37, st 27), (one 63, tr 42)]),
  (27, narrow [(xdigit, st 28)]),
  (28, narrow [(xdigit, st 26)]),
  (29, wide [(one 32, tr 53), (query, tr 54), (one 35, tr 55), (one 37, tr 56)]),
  (30, wide [(one 32, tr 57), (query, st 30), (one 35, tr 59), (one 37, st 31)]),
  (31, narrow [(xdigit, st 32)]),
  (32, narrow [(xdigit, st 30)]),
  (33, wide [(one 32, tr 37), (pchar, st 26), (one 35, tr 39), (one 37, st 27), (one 47, st 34),
    (one 63, tr 42)]),
  (34, wide [(one 32, tr 37), (regName, st 35), (one 35, tr 39), (one 37, st 36), (one 47, st 26),
    (one 58, st 38), (one 63, tr 42), (one 64, st 42), (one 91, st 47)]),
  (35, wide [(one 32, tr 37), (regName, st 35), (one 35, tr 39), (one 37, st 36), (one 47, st 26),
    (one 58, st 38), (one 63, tr 42), (one 64, st 42)]),
  (36, narrow [(xdigit, st 37)]),
  (37, narrow [(xdigit, st 35)]),
  (38, wide [(one 32, tr 37),
    ([(33, 33), (36, 36), (38, 46), (58, 59), (61, 61), (65, 90), (95, 95), (97, 122),
      (126, 126), (606, 606), (635, 635), (637, 637)], st 39), (one 35, tr 39), (one 37, st 40),
    (one 47, st 26), (digit, st 38), (one 63, tr 42), (one 64, st 42)]),
  (39, wide [(userinfo, st 39), (one 37, st 40), (one 64, st 42)]),
  (40, narrow [(xdigit, st 41)]),
  (41, narrow [(xdigit, st 39)]),
  (42, wide [(one 32, tr 37), (regName, st 43), (one 35, tr 39), (one 37, st 44), (one 47, st 26),
    (one 58, st 46), (one 63, tr 42), (one 91, st 47)]),
  (43, wide [(one 32, tr 37), (regName, st 43), (one 35, tr 39), (one 37, st 44), (one 47, st 26),
    (one 58, st 46), (one 63, tr 42)]),
  (44, narrow [(xdigit, st 45)]),
  (45, narrow [(xdigit, st 43)]),
  (46, narrow [(one 32, tr 37), (one 35, tr 39), (one 47, st 26), (digit, st 46),
    (one 63, tr 42)]),
  (47, narrow [(one 6, st 48), (xdigit, st 91), (one 58, st 167), (one 118, st 169)]),
  (48, narrow [(xdigit, st 49)]),
  (49, narrow [(xdigit, st 50), (one 58, st 53)]),
  (50, narrow [(xdigit, st 51), (one 58, st 53)]),
  (51, narrow [(xdigit, st 52), (one 58, st 53)]),
  (52, narrow [(one 58, st 53)]),
  (53, narrow [([(48, 48), (51, 57)], st 54), (one 49, st 84), (one 50, st 87), (xalpha, st 90)]),
  (54, narrow [(one 46, st 55), (xdigit, st 77), (one 58, st 80)]),
  (55, narrow [([(48, 48), (51, 57)], st 56), (one 49, st 72), (one 50, st 74)]),
  (56, narrow [(one 46, st 57)]),
  (57, narrow [([(48, 48), (51, 57)], st 58), (one 49, st 67), (one 50, st 69)]),
  (58, narrow [(one 46, st 59)]),
  (59, narrow [([(48, 48), (51, 57)], st 60), (one 49, st 62), (one 50, st 64)]),
  (60, narrow [(one 93, st 61)]),
  (61, narrow [(one 32, tr 37), (one 35, tr 39), (one 47, st 26), (one 58, st 46),
    (one 63, tr 42)]),
  (62, narrow [(digit, st 63), (one 93, st 61)]),
  (63, narrow [(digit, st 60), (one 93, st 61)]),
  (64, narrow [(one 48, st 65), (one 53, st 66), (one 93, st 61)]),
  (65, narrow [(digit, st 60)]),
  (66, narrow [(one 48, st 60)]),
  (67, narrow [(one 46, st 59), (digit, st 68)]),
  (68, narrow [(one 46, st 59), (digit, st 58)]),
  (69, narrow [(one 46, st 59), (one 48, st 70), (one 53, st 71)]),
  (70, narrow [(digit, st 58)]),
  (71, narrow [(one 48, st 58)]),
  (72, narrow [(one 46, st 57), (digit, st 73)]),
  (73, narrow [(one 46, st 57), (digit, st 56)]),
  (74, narrow [(one 46, st 57), (one 48, st 75), (one 53, st 76)]),
  (75, narrow [(digit, st 56)]),
  (76, narrow [(one 48, st 56)]),
  (77, narrow [(xdigit, st 78), (one 58, st 80)]),
  (78, narrow [(xdigit, st 79), (one 58, st 80)]),
  (79, narrow [(one 58, st 80)]),
  (80, narrow [(xdigit, st 81)]),
  (81, narrow [(xdigit, st 82), (one 93, st 61)]),
  (82, narrow [(xdigit, st 83), (one 93, st 61)]),
  (83, narrow [(xdigit, st 60), (one 93, st 61)]),
  (84, narrow [(one 46, st 55), (digit, st 85), (one 58, st 80), (xalpha, st 77)]),
  (85, narrow [(one 46, st 55), (digit, st 86), (one 58, st 80), (xalpha, st 78)]),
  (86, narrow [(one 46, st 55), (xdigit, st 79), (one 58, st 80)]),
  (87, narrow [(one 46, st 55), (one 48, st 88),
    ([(49, 52), (54, 57), (65, 70), (97, 102)], st 77), (one 53, st 89), (one 58, st 80)]),
  (88, narrow [(digit, st 86), (one 58, st 80), (xalpha, st 78)]),
  (89, narrow [(one 48, st 86), ([(49, 57), (65, 70), (97, 102)], st 78), (one 58, st 80)]),
  (90, narrow [(xdigit, st 77), (one 58, st 80)]),
  (91, narrow [(xdigit, st 92), (one 58, st 95)]),
  (92, narrow [(xdigit, st 93), (one 58, st 95)]),
  (93, narrow [(xdigit, st 94), (one 58, st 95)]),
  (94, narrow [(one 58, st 95)]),
  (95, narrow [(xdigit, st 96), (one 58, st 166)]),
  (96, narrow [(xdigit, st 97), (one 58, st 100)]),
  (97, narrow [(xdigit, st 98), (one 58, st 100)]),
  (98, narrow [(xdigit, st 99), (one 58, st 100)]),
  (99, narrow [(one 58, st 100)]),
  (100, narrow [(xdigit, st 101), (one 58, st 165)]),
  (101, narrow [(xdigit, st 102), (one 58, st 105)]),
  (102, narrow [(xdigit, st 103), (one 58, st 105)]),
  (103, narrow [(xdigit, st 104), (one 58, st 105)]),
  (104, narrow [(one 58, st 105)]),
  (105, narrow [(xdigit, st 106), (one 58, st 164)]),
  (106, narrow [(xdigit, st 107), (one 58, st 110)]),
  (107, narrow [(xdigit, st 108), (one 58, st 110)]),
  (108, narrow [(xdigit, st 109), (one 58, st 110)]),
  (109, narrow [(one 58, st 110)]),
  (110, narrow [(xdigit, st 111), (one 58, st 163)]),
  (111, narrow [(xdigit, st 112), (one 58, st 115)]),
  (112, narrow [(xdigit, st 113), (one 58, st 115)]),
  (113, narrow [(xdigit, st 114), (one 58, st 115)]),
  (114, narrow [(one 58, st 115)]),
  (115, narrow [(xdigit, st 116), (one 58, st 151)]),
  (116, narrow [(xdigit, st 117), (one 58, st 120)]),
  (117, narrow [(xdigit, st 118), (one 58, st 120)]),
  (118, narrow [(xdigit, st 119), (one 58, st 120)]),
  (119, narrow [(one 58, st 120)]),
  (120, narrow [(xdigit, st 121), (one 58, st 150)]),
  (121, narrow [(xdigit, st 122), (one 58, st 125)]),
  (122, narrow [(xdigit, st 123), (one 58, st 125)]),
  (123, narrow [(xdigit, st 124), (one 58, st 125)]),
  (124, narrow [(one 58, st 125)]),
  (125, narrow [(xdigit, st 121), (one 58, st 126)]),
  (126, narrow [([(2, 3)], st 48), ([(48, 48), (51, 57)], st 127), (one 49, st 143),
    (one 50, st 146), (xalpha, st 149), (one 93, st 61)]),
  (127, narrow [(one 46, st 55), (xdigit, st 128), (one 58, st 131), (one 93, st 61)]),
  (128, narrow [(xdigit, st 129), (one 58, st 131), (one 93, st 61)]),
  (129, narrow [(xdigit, st 130), (one 58, st 131), (one 93, st 61)]),
  (130, narrow [(one 58, st 131), (one 93, st 61)]),
  (131, narrow [([(48, 48), (51, 57)], st 132), (one 49, st 136), (one 50, st 139),
    (xalpha, st 142)]),
  (132, narrow [(one 46, st 55), (xdigit, st 133), (one 58, st 80), (one 93, st 61)]),
  (133, narrow [(xdigit, st 134), (one 58, st 80), (one 93, st 61)]),
  (134, narrow [(xdigit, st 135), (one 58, st 80), (one 93, st 61)]),
  (135, narrow [(one 58, st 80), (one 93, st 61)]),
  (136, narrow [(one 46, st 55), (digit, st 137), (one 58, st 80), (xalpha, st 133),
    (one 93, st 61)]),
  (137, narrow [(one 46, st 55), (digit, st 138), (one 58, st 80), (xalpha, st 134),
    (one 93, st 61)]),
  (138, narrow [(one 46, st 55), (xdigit, st 135), (one 58, st 80), (one 93, st 61)]),
  (139, narrow [(one 46, st 55), (one 48, st 140),
    ([(49, 52), (54, 57), (65, 70), (97, 102)], st 133), (one 53, st 141), (one 58, st 80),
    (one 93, st 61)]),
  (140, narrow [(digit, st 138), (one 58, st 80), (xalpha, st 134), (one 93, st 61)]),
  (141, narrow [(one 48, st 138), ([(49, 57), (65, 70), (97, 102)], st 134), (one 58, st 80),
    (one 93, st 61)]),
  (142, narrow [(xdigit, st 133), (one 58, st 80), (one 93, st 61)]),
  (143, narrow [(one 46, st 55), (digit, st 144), (one 58, st 131), (xalpha, st 128),
    (one 93, st 61)]),
  (144, narrow [(one 46, st 55), (digit, st 145), (one 58, st 131), (xalpha, st 129),
    (one 93, st 61)]),
  (145, narrow [(one 46, st 55), (xdigit, st 130), (one 58, st 131), (one 93, st 61)]),
  (146, narrow [(one 46, st 55), (one 48, st 147),
    ([(49, 52), (54, 57), (65, 70), (97, 102)], st 128), (one 53, st 148), (one 58, st 131),
    (one 93, st 61)]),
  (147, narrow [(digit, st 145), (one 58, st 131), (xalpha, st 129), (one 93, st 61)]),
  (148, narrow [(one 48, st 145), ([(49, 57), (65, 70), (97, 102)], st 129), (one 58, st 131),
    (one 93, st 61)]),
  (149, narrow [(xdigit, st 128), (one 58, st 131), (one 93, st 61)]),
  (150, narrow [([(2, 3)], st 48), ([(48, 48), (51, 57)], st 127), (one 49, st 143),
    (one 50, st 146), (xalpha, st 149)]),
  (151, narrow [([(2, 3)], st 48), ([(48, 48), (51, 57)], st 152), (one 49, st 156),
    (one 50, st 159), (xalpha, st 162)]),
  (152, narrow [(one 46, st 55), (xdigit, st 153), (one 58, st 131)]),
  (153, narrow [(xdigit, st 154), (one 58, st 131)]),
  (154, narrow [(xdigit, st 155), (one 58, st 131)]),
  (155, narrow [(one 58, st 131)]),
  (156, narrow [(one 46, st 55), (digit, st 157), (one 58, st 131), (xalpha, st 153)]),
  (157, narrow [(one 46, st 55), (digit, st 158), (one 58, st 131), (xalpha, st 154)]),
  (158, narrow [(one 46, st 55), (xdigit, st 155), (one 58, st 131)]),
  (159, narrow [(one 46, st 55), (one 48, st 160),
    ([(49, 52), (54, 57), (65, 70), (97, 102)], st 153), (one 53, st 161), (one 58, st 131)]),
  (160, narrow [(digit, st 158), (one 58, st 131), (xalpha, st 154)]),
  (161, narrow [(one 48, st 158), ([(49, 57), (65, 70), (97, 102)], st 154), (one 58, st 131)]),
  (162, narrow [(xdigit, st 153), (one 58, st 131)]),
  (163, narrow [([(2, 3)], st 48), (xdigit, st 49)]),
  (164, narrow [([(2, 3)], st 48)]),
  (165, narrow [(one 3, st 48)]),
  (166, narrow [(one 4, st 48)]),
  (167, narrow [(one 58, st 168)]),
  (168, narrow [([(2, 5)], st 48), ([(48, 48), (51, 57)], st 127), (one 49, st 143),
    (one 50, st 146), (xalpha, st 149), (one 93, st 61)]),
  (169, narrow [(xdigit, st 170)]),
  (170, narrow [(one 46, st 171), (xdigit, st 170)]),
  (171, wide [(userinfo, st 172)]),
  (172, wide [(userinfo, st 172), (one 93, st 61)]),
  (173, wide [(one 32, tr 37),
    ([(33, 33), (36, 36), (38, 42), (44, 44), (59, 59), (61, 61), (64, 64), (95, 95),
      (126, 126), (606, 606), (635, 635), (637, 637)], st 19), (one 35, tr 39), (one 37, st 24),
    ([(43, 43), (45, 46), (48, 57), (65, 90), (97, 122)], st 173), (one 47, st 26),
    (one 58, st 174), (one 63, tr 42)]),
  (174, wide [(one 32, tr 6), (pchar, tr 203), (one 35, tr 8), (one 37, tr 204), (one 47, tr 10),
    (one 63, tr 11)]),
  (175, narrow [(one 32, tr 4), (methodChar, st 176)]),
  (176, narrow [(one 32, tr 4), (methodChar, st 177)]),
  (177, narrow [(one 32, tr 4), (methodChar, st 178)]),
  (178, narrow [(one 32, tr 4), (methodChar, st 179)]),
  (179, narrow [(one 32, tr 4), (methodChar, st 180)]),
  (180, narrow [(one 32, tr 4), (methodChar, st 181)]),
  (181, narrow [(one 32, tr 4), (methodChar, st 182)]),
  (182, narrow [(one 32, tr 4), (methodChar, st 183)]),
  (183, narrow [(one 32, tr 4), (methodChar, st 184)]),
  (184, narrow [(one 32, tr 4), (methodChar, st 185)]),
  (185, narrow [(one 32, tr 4), (methodChar, st 186)]),
  (186, narrow [(one 32, tr 4), (methodChar, st 187)]),
  (187, narrow [(one 32, tr 4), (methodChar, st 188)]),
  (188, narrow [(one 32, tr 4), (methodChar, st 189)]),
  (189, narrow [(one 32, tr 4), (methodChar, st 190)]),
  (190, narrow [(one 32, tr 4), (methodChar, st 191)]),
  (191, narrow [(one 32, tr 4), (methodChar, st 192)]),
  (192, narrow [(one 32, tr 4), (methodChar, st 193)]),
  (193, narrow [(one 32, tr 4)]),
  (194, narrow [([(45, 46), (48, 57), (65, 90), (97, 122)], st 195)]),
  (195, narrow [([(9, 13), (32, 32), (47, 47), (62, 62)], tr 224),
    ([(45, 46), (48, 57), (65, 90), (97, 122)], st 195)]),
  (196, narrow [([(-128, 61), (63, 127)], st 196), (one 62, st 197)]),
  (197, narrow [([(-128, -1), (1, 61), (63, 127)], st 196), (one 0, tr 227), (one 62, st 197)]),
  (198, wide [(one 32, tr 228), (segmentNzNc, st 202), (one 37, st 203), (one 47, st 208)]),
  (199, narrow [(one 123, tr 232)]),
  (200, narrow [([(-128, 124), (126, 127)], st 200), (one 125, st 201)]),
  (201, narrow [([(-128, -1), (1, 124), (126, 127)], st 200), (one 0, tr 235), (one 125, st 201)]),
  (202, wide [(one 32, tr 228), (segmentNzNc, st 202), (one 37, st 203), (one 47, st 205)]),
  (203, narrow [(xdigit, st 204)]),
  (204, narrow [(xdigit, st 202)]),
  (205, wide [(one 32, tr 228), (path, st 205), (one 37, st 206)]),
  (206, narrow [(xdigit, st 207)]),
  (207, narrow [(xdigit, st 205)]),
  (208, wide [(one 32, tr 228), (pchar, st 205), (one 37, st 206), (one 47, st 209)]),
  (209, wide [(one 32, tr 228), (regName, st 210), (one 37, st 211), (one 47, st 205),
    (one 58, st 213), (one 64, st 217), (one 91, st 222)]),
  (210, wide [(one 32, tr 228), (regName, st 210), (one 37, st 211), (one 47, st 205),
    (one 58, st 213), (one 64, st 217)]),
  (211, narrow [(xdigit, st 212)]),
  (212, narrow [(xdigit, st 210)]),
  (213, wide [(one 32, tr 228),
    ([(33, 33), (36, 36), (38, 46), (58, 59), (61, 61), (65, 90), (95, 95), (97, 122),
      (126, 126), (606, 606), (635, 635), (637, 637)], st 214), (one 37, st 215),
    (one 47, st 205), (digit, st 213), (one 64, st 217)]),
  (214, wide [(userinfo, st 214), (one 37, st 215), (one 64, st 217)]),
  (215, narrow [(xdigit, st 216)]),
  (216, narrow [(xdigit, st 214)]),
  (217, wide [(one 32, tr 228), (regName, st 218), (one 37, st 219), (one 47, st 205),
    (one 58, st 221), (one 91, st 222)]),
  (218, wide [(one 32, tr 228), (regName, st 218), (one 37, st 219), (one 47, st 205),
    (one 58, st 221)]),
  (219, narrow [(xdigit, st 220)]),
  (220, narrow [(xdigit, st 218)]),
  (221, narrow [(one 32, tr 228), (one 47, st 205), (digit, st 221)]),
  (222, narrow [(one 6, st 223), (xdigit, st 266), (one 58, st 342), (one 118, st 344)]),
  (223, narrow [(xdigit, st 224)]),
  (224, narrow [(xdigit, st 225), (one 58, st 228)]),
  (225, narrow [(xdigit, st 226), (one 58, st 228)]),
  (226, narrow [(xdigit, st 227), (one 58, st 228)]),
  (227, narrow [(one 58, st 228)]),
  (228, narrow [([(48, 48), (51, 57)], st 229), (one 49, st 259), (one 50, st 262),
    (xalpha, st 265)]),
  (229, narrow [(one 46, st 230), (xdigit, st 252), (one 58, st 255)]),
  (230, narrow [([(48, 48), (51, 57)], st 231), (one 49, st 247), (one 50, st 249)]),
  (231, narrow [(one 46, st 232)]),
  (232, narrow [([(48, 48), (51, 57)], st 233), (one 49, st 242), (one 50, st 244)]),
  (233, narrow [(one 46, st 234)]),
  (234, narrow [([(48, 48), (51, 57)], st 235), (one 49, st 237), (one 50, st 239)]),
  (235, narrow [(one 93, st 236)]),
  (236, narrow [(one 32, tr 228), (one 47, st 205), (one 58, st 221)]),
  (237, narrow [(digit, st 238), (one 93, st 236)]),
  (238, narrow [(digit, st 235), (one 93, st 236)]),
  (239, narrow [(one 48, st 240), (one 53, st 241), (one 93, st 236)]),
  (240, narrow [(digit, st 235)]),
  (241, narrow [(one 48, st 235)]),
  (242, narrow [(one 46, st 234), (digit, st 243)]),
  (243, narrow [(one 46, st 234), (digit, st 233)]),
  (244, narrow [(one 46, st 234), (one 48, st 245), (one 53, st 246)]),
  (245, narrow [(digit, st 233)]),
  (246, narrow [(one 48, st 233)]),
  (247, narrow [(one 46, st 232), (digit, st 248)]),
  (248, narrow [(one 46, st 232), (digit, st 231)]),
  (249, narrow [(one 46, st 232), (one 48, st 250), (one 53, st 251)]),
  (250, narrow [(digit, st 231)]),
  (251, narrow [(one 48, st 231)]),
  (252, narrow [(xdigit, st 253), (one 58, st 255)]),
  (253, narrow [(xdigit, st 254), (one 58, st 255)]),
  (254, narrow [(one 58, st 255)]),
  (255, narrow [(xdigit, st 256)]),
  (256, narrow [(xdigit, st 257), (one 93, st 236)]),
  (257, narrow [(xdigit, st 258), (one 93, st 236)]),
  (258, narrow [(xdigit, st 235), (one 93, st 236)]),
  (259, narrow [(one 46, st 230), (digit, st 260), (one 58, st 255), (xalpha, st 252)]),
  (260, narrow [(one 46, st 230), (digit, st 261), (one 58, st 255), (xalpha, st 253)]),
  (261, narrow [(one 46, st 230), (xdigit, st 254), (one 58, st 255)]),
  (262, narrow [(one 46, st 230), (one 48, st 263),
    ([(49, 52), (54, 57), (65, 70), (97, 102)], st 252), (one 53, st 264), (one 58, st 255)]),
  (263, narrow [(digit, st 261), (one 58, st 255), (xalpha, st 253)]),
  (264, narrow [(one 48, st 261), ([(49, 57), (65, 70), (97, 102)], st 253), (one 58, st 255)]),
  (265, narrow [(xdigit, st 252), (one 58, st 255)]),
  (266, narrow [(xdigit, st 267), (one 58, st 270)]),
  (267, narrow [(xdigit, st 268), (one 58, st 270)]),
  (268, narrow [(xdigit, st 269), (one 58, st 270)]),
  (269, narrow [(one 58, st 270)]),
  (270, narrow [(xdigit, st 271), (one 58, st 341)]),
  (271, narrow [(xdigit, st 272), (one 58, st 275)]),
  (272, narrow [(xdigit, st 273), (one 58, st 275)]),
  (273, narrow [(xdigit, st 274), (one 58, st 275)]),
  (274, narrow [(one 58, st 275)]),
  (275, narrow [(xdigit, st 276), (one 58, st 340)]),
  (276, narrow [(xdigit, st 277), (one 58, st 280)]),
  (277, narrow [(xdigit, st 278), (one 58, st 280)]),
  (278, narrow [(xdigit, st 279), (one 58, st 280)]),
  (279, narrow [(one 58, st 280)]),
  (280, narrow [(xdigit, st 281), (one 58, st 339)]),
  (281, narrow [(xdigit, st 282), (one 58, st 285)]),
  (282, narrow [(xdigit, st 283), (one 58, st 285)]),
  (283, narrow [(xdigit, st 284), (one 58, st 285)]),
  (284, narrow [(one 58, st 285)]),
  (285, narrow [(xdigit, st 286), (one 58, st 338)]),
  (286, narrow [(xdigit, st 287), (one 58, st 290)]),
  (287, narrow [(xdigit, st 288), (one 58, st 290)]),
  (288, narrow [(xdigit, st 289), (one 58, st 290)]),
  (289, narrow [(one 58, st 290)]),
  (290, narrow [(xdigit, st 291), (one 58, st 326)]),
  (291, narrow [(xdigit, st 292), (one 58, st 295)]),
  (292, narrow [(xdigit, st 293), (one 58, st 295)]),
  (293, narrow [(xdigit, st 294), (one 58, st 295)]),
  (294, narrow [(one 58, st 295)]),
  (295, narrow [(xdigit, st 296), (one 58, st 325)]),
  (296, narrow [(xdigit, st 297), (one 58, st 300)]),
  (297, narrow [(xdigit, st 298), (one 58, st 300)]),
  (298, narrow [(xdigit, st 299), (one 58, st 300)]),
  (299, narrow [(one 58, st 300)]),
  (300, narrow [(xdigit, st 296), (one 58, st 301)]),
  (301, narrow [([(2, 3)], st 223), ([(48, 48), (51, 57)], st 302), (one 49, st 318),
    (one 50, st 321), (xalpha, st 324), (one 93, st 236)]),
  (302, narrow [(one 46, st 230), (xdigit, st 303), (one 58, st 306), (one 93, st 236)]),
  (303, narrow [(xdigit, st 304), (one 58, st 306), (one 93, st 236)]),
  (304, narrow [(xdigit, st 305), (one 58, st 306), (one 93, st 236)]),
  (305, narrow [(one 58, st 306), (one 93, st 236)]),
  (306, narrow [([(48, 48), (51, 57)], st 307), (one 49, st 311), (one 50, st 314),
    (xalpha, st 317)]),
  (307, narrow [(one 46, st 230), (xdigit, st 308), (one 58, st 255), (one 93, st 236)]),
  (308, narrow [(xdigit, st 309), (one 58, st 255), (one 93, st 236)]),
  (309, narrow [(xdigit, st 310), (one 58, st 255), (one 93, st 236)]),
  (310, narrow [(one 58, st 255), (one 93, st 236)]),
  (311, narrow [(one 46, st 230), (digit, st 312), (one 58, st 255), (xalpha, st 308),
    (one 93, st 236)]),
  (312, narrow [(one 46, st 230), (digit, st 313), (one 58, st 255), (xalpha, st 309),
    (one 93, st 236)]),
  (313, narrow [(one 46, st 230), (xdigit, st 310), (one 58, st 255), (one 93, st 236)]),
  (314, narrow [(one 46, st 230), (one 48, st 315),
    ([(49, 52), (54, 57), (65, 70), (97, 102)], st 308), (one 53, st 316), (one 58, st 255),
    (one 93, st 236)]),
  (315, narrow [(digit, st 313), (one 58, st 255), (xalpha, st 309), (one 93, st 236)]),
  (316, narrow [(one 48, st 313), ([(49, 57), (65, 70), (97, 102)], st 309), (one 58, st 255),
    (one 93, st 236)]),
  (317, narrow [(xdigit, st 308), (one 58, st 255), (one 93, st 236)]),
  (318, narrow [(one 46, st 230), (digit, st 319), (one 58, st 306), (xalpha, st 303),
    (one 93, st 236)]),
  (319, narrow [(one 46, st 230), (digit, st 320), (one 58, st 306), (xalpha, st 304),
    (one 93, st 236)]),
  (320, narrow [(one 46, st 230), (xdigit, st 305), (one 58, st 306), (one 93, st 236)]),
  (321, narrow [(one 46, st 230), (one 48, st 322),
    ([(49, 52), (54, 57), (65, 70), (97, 102)], st 303), (one 53, st 323), (one 58, st 306),
    (one 93, st 236)]),
  (322, narrow [(digit, st 320), (one 58, st 306), (xalpha, st 304), (one 93, st 236)]),
  (323, narrow [(one 48, st 320), ([(49, 57), (65, 70), (97, 102)], st 304), (one 58, st 306),
    (one 93, st 236)]),
  (324, narrow [(xdigit, st 303), (one 58, st 306), (one 93, st 236)]),
  (325, narrow [([(2, 3)], st 223), ([(48, 48), (51, 57)], st 302), (one 49, st 318),
    (one 50, st 321), (xalpha, st 324)]),
  (326, narrow [([(2, 3)], st 223), ([(48, 48), (51, 57)], st 327), (one 49, st 331),
    (one 50, st 334), (xalpha, st 337)]),
  (327, narrow [(one 46, st 230), (xdigit, st 328), (one 58, st 306)]),
  (328, narrow [(xdigit, st 329), (one 58, st 306)]),
  (329, narrow [(xdigit, st 330), (one 58, st 306)]),
  (330, narrow [(one 58, st 306)]),
  (331, narrow [(one 46, st 230), (digit, st 332), (one 58, st 306), (xalpha, st 328)]),
  (332, narrow [(one 46, st 230), (digit, st 333), (one 58, st 306), (xalpha, st 329)]),
  (333, narrow [(one 46, st 230), (xdigit, st 330), (one 58, st 306)]),
  (334, narrow [(one 46, st 230), (one 48, st 335),
    ([(49, 52), (54, 57), (65, 70), (97, 102)], st 328), (one 53, st 336), (one 58, st 306)]),
  (335, narrow [(digit, st 333), (one 58, st 306), (xalpha, st 329)]),
  (336, narrow [(one 48, st 333), ([(49, 57), (65, 70), (97, 102)], st 329), (one 58, st 306)]),
  (337, narrow [(xdigit, st 328), (one 58, st 306)]),
  (338, narrow [([(2, 3)], st 223), (xdigit, st 224)]),
  (339, narrow [([(2, 3)], st 223)]),
  (340, narrow [(one 3, st 223)]),
  (341, narrow [(one 4, st 223)]),
  (342, narrow [(one 58, st 343)]),
  (343, narrow [([(2, 5)], st 223), ([(48, 48), (51, 57)], st 302), (one 49, st 318),
    (one 50, st 321), (xalpha, st 324), (one 93, st 236)]),
  (344, narrow [(xdigit, st 345)]),
  (345, narrow [(one 46, st 346), (xdigit, st 345)]),
  (346, wide [(userinfo, st 347)]),
  (347, wide [(userinfo, st 347), (one 93, st 236)]),
  (348, narrow [(token, st 14), (one 58, tr 27)]),
  (349, narrow [])]

end Table

/-! ## Running it -/

/-- What `stN:` and `trN:` do and where they end. -/
def target : Goto → List Action × Nat
  | .st n => ([], n)
  | .tr n => block n

/-- A `char` is signed. -/
def signed (c : UInt8) : Int := if c.toNat < 128 then c.toNat else c.toNat - 256

/-- `_widec`, where the case computes it. -/
def widec (relaxed : Bool) (c : UInt8) : Int :=
  if c = 94 ∨ c = 123 ∨ c = 125 then 128 + (signed c - -128) + (if relaxed then 256 else 0)
  else signed c

def Case.key (relaxed : Bool) (row : Case) (c : UInt8) : Int :=
  if row.computesWidec then widec relaxed c else signed c

/-- Some range of the edge holds the key. -/
def covers (k : Int) (edge : List (Int × Int) × Goto) : Bool :=
  edge.1.any fun r => decide (r.1 ≤ k ∧ k ≤ r.2)

/-- The `goto` that the case takes; `none` is `goto st0`. -/
def Case.goto (relaxed : Bool) (row : Case) (c : UInt8) : Option Goto :=
  (row.edges.find? (covers (row.key relaxed c))).map (·.2)

/-- The actions on a character, and the next state. -/
def next (relaxed : Bool) (cs : Nat) (c : UInt8) : Option (List Action × Nat) :=
  (cases.lookup cs).bind fun row => (row.goto relaxed c).map target

/-- The machine.  The action `done` breaks, and it is in each block that enters a final state. -/
def control (relaxed : Bool) : Control Nat UInt8 Action where
  next := next relaxed
  halts := fun cs => cs == httpParserError || decide (httpParserFirstFinal ≤ cs)
  refused := httpParserError
  halts_refused := rfl

/-- The actions of one row lead to a final state exactly when `done` is among them. -/
def rowBreaks (row : Nat × Case) : Bool :=
  row.2.edges.all fun edge =>
    decide (httpParserFirstFinal ≤ (target edge.2).2) == (target edge.2).1.contains .done

theorem cases_break : cases.all rowBreaks = true := by decide +kernel

theorem mem_of_lookup {cs : Nat} {row : Case} (hrow : cases.lookup cs = some row) :
    (cs, row) ∈ cases := by
  obtain ⟨before, rest, hsplit, -⟩ := List.lookup_eq_some_iff.mp hrow
  rw [hsplit]
  exact List.mem_append_right _ List.mem_cons_self

/-- A character that has a transition takes an edge of the row of its state. -/
theorem edge_of_next {relaxed : Bool} {cs cs' : Nat} {c : UInt8} {actions : List Action}
    (hnext : next relaxed cs c = some (actions, cs')) :
    ∃ row edge, (cs, row) ∈ cases ∧ edge ∈ row.edges ∧ target edge.2 = (actions, cs') ∧
      covers (row.key relaxed c) edge = true := by
  obtain ⟨row, hrow, hgoto⟩ := Option.bind_eq_some_iff.mp hnext
  obtain ⟨goto, hfound, htarget⟩ := Option.map_eq_some_iff.mp hgoto
  obtain ⟨edge, hedge, rfl⟩ := Option.map_eq_some_iff.mp hfound
  exact ⟨row, edge, mem_of_lookup hrow, List.mem_of_find?_eq_some hedge, htarget,
    List.find?_some hedge⟩

/-- **A final state is entered exactly by `done`.** -/
theorem final_iff_done {relaxed : Bool} {cs cs' : Nat} {c : UInt8} {actions : List Action}
    (hnext : next relaxed cs c = some (actions, cs')) :
    httpParserFirstFinal ≤ cs' ↔ Action.done ∈ actions := by
  obtain ⟨row, edge, hrow, hedge, htarget, -⟩ := edge_of_next hnext
  have hbreaks : decide (httpParserFirstFinal ≤ (target edge.2).2) =
      (target edge.2).1.contains .done :=
    beq_iff_eq.mp (List.all_eq_true.mp (List.all_eq_true.mp cases_break _ hrow) _ hedge)
  rw [htarget] at hbreaks
  rw [← List.contains_iff_mem, ← hbreaks, decide_eq_true_iff]

end Machine
end Http
end Routn
