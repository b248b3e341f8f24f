import Mathlib.Tactic
import Routn.Foundation.Control
import Routn.Foundation.Ranges

/-!
# The machine `uri_parser`

What `Uri.rl.cpp`, generated from `Uri.rl`, runs: each `case N:` compares the character with ranges
and goes to a block `trN:` of actions or to a state `stN:`, and to `st0`, the error, when no range
holds it.  A range has its bounds as a `char`, which is signed.

The grammar has `2 [0-4] digit` in `dec_octet`, without quotes: that is the character with the
number 2, and the rows with `one 2` come from it.
-/

namespace Routn
namespace UriParser

open Foundation

/-- The actions of `Uri.rl`; `mark` is `marku` and `markh`. -/
inductive Action
  | mark
  | saveScheme
  | saveUserinfo
  | saveHost
  | savePort
  | savePath
  | saveQuery
  | saveFragment
deriving DecidableEq, Repr

/-- Where a `goto` leads. -/
inductive Goto
  | st (n : Nat)
  | tr (n : Nat)
deriving DecidableEq, Repr

def uriParserStart : Nat := 451

def uriParserFirstFinal : Nat := 451

def uriParserError : Nat := 0

section Table

open Goto

/-- The blocks `trN:`, with the state each falls into or goes to. -/
def block : Nat → List Action × Nat
  | 38 => ([.saveUserinfo], 469)
  | 263 => ([.saveUserinfo], 522)
  | 461 => ([.mark], 508)
  | 462 => ([.mark], 454)
  | 463 => ([.mark], 1)
  | 466 => ([.mark], 457)
  | 467 => ([.mark, .saveQuery], 453)
  | 468 => ([.mark], 7)
  | 469 => ([.saveQuery], 453)
  | 472 => ([.mark], 9)
  | 473 => ([.mark], 467)
  | 474 => ([.mark, .saveHost], 453)
  | 475 => ([.mark], 31)
  | 476 => ([.mark, .saveHost], 455)
  | 477 => ([.mark], 490)
  | 478 => ([.mark], 504)
  | 479 => ([.mark], 506)
  | 480 => ([.mark], 505)
  | 481 => ([.mark, .saveHost], 468)
  | 482 => ([.mark, .saveHost], 456)
  | 483 => ([.mark, .saveUserinfo], 469)
  | 484 => ([.mark], 38)
  | 485 => ([.saveHost], 453)
  | 486 => ([.saveHost], 455)
  | 487 => ([.saveHost], 461)
  | 488 => ([.saveHost], 456)
  | 489 => ([.mark, .savePort], 453)
  | 490 => ([.mark, .savePort], 455)
  | 491 => ([.mark], 462)
  | 492 => ([.mark, .savePort], 456)
  | 493 => ([.savePort], 453)
  | 494 => ([.savePort], 455)
  | 496 => ([.savePort], 456)
  | 499 => ([.saveHost], 468)
  | 500 => ([.mark], 489)
  | 501 => ([.mark], 470)
  | 502 => ([.mark], 36)
  | 503 => ([.mark], 471)
  | 504 => ([.mark], 485)
  | 505 => ([.mark], 487)
  | 506 => ([.mark], 486)
  | 507 => ([.mark, .saveHost], 461)
  | 543 => ([.saveScheme], 509)
  | 546 => ([.mark], 229)
  | 547 => ([.mark], 520)
  | 548 => ([.mark, .saveHost, .savePath], 453)
  | 549 => ([.mark], 253)
  | 550 => ([.mark, .saveHost], 513)
  | 551 => ([.mark], 543)
  | 552 => ([.mark], 557)
  | 553 => ([.mark], 559)
  | 554 => ([.mark], 558)
  | 555 => ([.mark, .saveHost], 521)
  | 556 => ([.mark, .saveHost, .savePath], 456)
  | 557 => ([.mark, .saveUserinfo], 522)
  | 558 => ([.mark], 260)
  | 559 => ([.saveHost, .mark, .savePath], 453)
  | 560 => ([.saveHost, .mark], 513)
  | 561 => ([.saveHost], 514)
  | 562 => ([.saveHost, .mark, .savePath], 456)
  | 563 => ([.savePath], 453)
  | 565 => ([.savePath], 456)
  | 566 => ([.mark, .savePort, .savePath], 453)
  | 567 => ([.mark, .savePort], 513)
  | 568 => ([.mark], 515)
  | 569 => ([.mark, .savePort, .savePath], 456)
  | 570 => ([.savePort, .mark, .savePath], 453)
  | 571 => ([.savePort, .mark], 513)
  | 573 => ([.savePort, .mark, .savePath], 456)
  | 576 => ([.saveHost], 521)
  | 577 => ([.mark], 542)
  | 578 => ([.mark], 523)
  | 579 => ([.mark], 258)
  | 580 => ([.mark], 524)
  | 581 => ([.mark], 538)
  | 582 => ([.mark], 540)
  | 583 => ([.mark], 539)
  | 584 => ([.mark, .saveHost], 514)
  | _ => ([], 0)

def one (k : Int) : List (Int × Int) := [(k, k)]

def digit : List (Int × Int) := [(48, 57)]

def xdigit : List (Int × Int) := [(48, 57), (65, 70), (97, 102)]

def xalpha : List (Int × Int) := [(65, 70), (97, 102)]

def alpha : List (Int × Int) := [(65, 90), (97, 122)]

def threeUp : List (Int × Int) := [(51, 57)]

def notFive : List (Int × Int) := [(48, 52), (54, 57)]

def upToFive : List (Int × Int) := [(48, 53)]

def upToFour : List (Int × Int) := [(48, 52)]

def sixUp : List (Int × Int) := [(54, 57), (65, 70), (97, 102)]

def regAlpha : List (Int × Int) :=
  [(33, 33), (36, 36), (38, 45), (59, 59), (61, 61), (65, 90), (95, 95), (97, 122), (126, 126)]

def regAlphaDot : List (Int × Int) :=
  [(33, 33), (36, 36), (38, 46), (59, 59), (61, 61), (65, 90), (95, 95), (97, 122), (126, 126)]

def regNoDot : List (Int × Int) :=
  [(33, 33), (36, 36), (38, 45), (48, 57), (59, 59), (61, 61), (65, 90), (95, 95), (97, 122),
    (126, 126)]

def regSixUp : List (Int × Int) :=
  [(33, 33), (36, 36), (38, 45), (54, 57), (59, 59), (61, 61), (65, 90), (95, 95), (97, 122),
    (126, 126)]

def regName : List (Int × Int) :=
  [(33, 33), (36, 36), (38, 46), (48, 57), (59, 59), (61, 61), (65, 90), (95, 95), (97, 122),
    (126, 126)]

def userinfo : List (Int × Int) :=
  [(33, 33), (36, 36), (38, 46), (48, 59), (61, 61), (65, 90), (95, 95), (97, 122), (126, 126)]

def userNoDigit : List (Int × Int) :=
  [(33, 33), (36, 36), (38, 46), (58, 59), (61, 61), (65, 90), (95, 95), (97, 122), (126, 126)]

def query : List (Int × Int) :=
  [(-128, -1), (33, 33), (36, 36), (38, 59), (61, 61), (63, 90), (95, 95), (97, 122), (126, 126)]

def pchar : List (Int × Int) :=
  [(-128, -1), (33, 33), (36, 36), (38, 46), (48, 59), (61, 61), (64, 90), (95, 95), (97, 122),
    (126, 126)]

def path : List (Int × Int) :=
  [(-128, -1), (33, 33), (36, 36), (38, 59), (61, 61), (64, 90), (95, 95), (97, 122), (126, 126)]

def pcharNc : List (Int × Int) :=
  [(-128, -1), (33, 33), (36, 36), (38, 46), (48, 57), (59, 59), (61, 61), (64, 90), (95, 95),
    (97, 122), (126, 126)]

/-- The cases of the `switch`. -/
def cases : List (Nat × List (List (Int × Int) × Goto)) := [
  (1, [(xdigit, st 2)]),
  (2, [(xdigit, st 454)]),
  (3, [(xdigit, st 4)]),
  (4, [(xdigit, st 452)]),
  (5, [(xdigit, st 6)]),
  (6, [(xdigit, st 455)]),
  (7, [(xdigit, st 8)]),
  (8, [(xdigit, st 457)]),
  (9, [(upToFour, st 10)]),
  (10, [(digit, st 11)]),
  (11, [(one 46, st 12)]),
  (12, [(one 2, st 13), (one 48, st 15), (one 49, st 27), (one 50, st 29), (threeUp, st 28)]),
  (13, [(upToFour, st 14)]),
  (14, [(digit, st 15)]),
  (15, [(one 46, st 16)]),
  (16, [(one 2, st 17), (one 48, st 19), (one 49, st 23), (one 50, st 25), (threeUp, st 24)]),
  (17, [(upToFour, st 18)]),
  (18, [(digit, st 19)]),
  (19, [(one 46, st 20)]),
  (20, [(one 2, st 21), (one 48, st 460), (one 49, st 463), (one 50, st 465), (threeUp, st 464)]),
  (21, [(upToFour, st 22)]),
  (22, [(digit, st 460)]),
  (23, [(one 46, st 20), (digit, st 24)]),
  (24, [(one 46, st 20), (digit, st 19)]),
  (25, [(one 46, st 20), (notFive, st 19), (one 53, st 26)]),
  (26, [(one 46, st 20), (upToFive, st 19)]),
  (27, [(one 46, st 16), (digit, st 28)]),
  (28, [(one 46, st 16), (digit, st 15)]),
  (29, [(one 46, st 16), (notFive, st 15), (one 53, st 30)]),
  (30, [(one 46, st 16), (upToFive, st 15)]),
  (31, [(xdigit, st 32)]),
  (32, [(xdigit, st 467)]),
  (33, [(userinfo, st 33), (one 37, st 34), (one 64, tr 38)]),
  (34, [(xdigit, st 35)]),
  (35, [(xdigit, st 33)]),
  (36, [(xdigit, st 37)]),
  (37, [(xdigit, st 470)]),
  (38, [(xdigit, st 39), (one 58, st 146), (one 118, st 225)]),
  (39, [(xdigit, st 40), (one 58, st 43)]),
  (40, [(xdigit, st 41), (one 58, st 43)]),
  (41, [(xdigit, st 42), (one 58, st 43)]),
  (42, [(one 58, st 43)]),
  (43, [(xdigit, st 44), (one 58, st 141)]),
  (44, [(xdigit, st 45), (one 58, st 48)]),
  (45, [(xdigit, st 46), (one 58, st 48)]),
  (46, [(xdigit, st 47), (one 58, st 48)]),
  (47, [(one 58, st 48)]),
  (48, [(xdigit, st 49), (one 58, st 136)]),
  (49, [(xdigit, st 50), (one 58, st 53)]),
  (50, [(xdigit, st 51), (one 58, st 53)]),
  (51, [(xdigit, st 52), (one 58, st 53)]),
  (52, [(one 58, st 53)]),
  (53, [(xdigit, st 54), (one 58, st 131)]),
  (54, [(xdigit, st 55), (one 58, st 58)]),
  (55, [(xdigit, st 56), (one 58, st 58)]),
  (56, [(xdigit, st 57), (one 58, st 58)]),
  (57, [(one 58, st 58)]),
  (58, [(xdigit, st 59), (one 58, st 126)]),
  (59, [(xdigit, st 60), (one 58, st 63)]),
  (60, [(xdigit, st 61), (one 58, st 63)]),
  (61, [(xdigit, st 62), (one 58, st 63)]),
  (62, [(one 58, st 63)]),
  (63, [(xdigit, st 64), (one 58, st 113)]),
  (64, [(xdigit, st 65), (one 58, st 68)]),
  (65, [(xdigit, st 66), (one 58, st 68)]),
  (66, [(xdigit, st 67), (one 58, st 68)]),
  (67, [(one 58, st 68)]),
  (68, [(one 2, st 69), (one 48, st 96), (one 49, st 104), (one 50, st 107), (threeUp, st 110),
    (one 58, st 111), (xalpha, st 112)]),
  (69, [(upToFour, st 70)]),
  (70, [(digit, st 71)]),
  (71, [(one 46, st 72)]),
  (72, [(one 2, st 73), (one 48, st 75), (one 49, st 92), (one 50, st 94), (threeUp, st 93)]),
  (73, [(upToFour, st 74)]),
  (74, [(digit, st 75)]),
  (75, [(one 46, st 76)]),
  (76, [(one 2, st 77), (one 48, st 79), (one 49, st 88), (one 50, st 90), (threeUp, st 89)]),
  (77, [(upToFour, st 78)]),
  (78, [(digit, st 79)]),
  (79, [(one 46, st 80)]),
  (80, [(one 2, st 81), (one 48, st 83), (one 49, st 84), (one 50, st 86), (threeUp, st 85)]),
  (81, [(upToFour, st 82)]),
  (82, [(digit, st 83)]),
  (83, [(one 93, st 460)]),
  (84, [(digit, st 85), (one 93, st 460)]),
  (85, [(digit, st 83), (one 93, st 460)]),
  (86, [(notFive, st 83), (one 53, st 87), (one 93, st 460)]),
  (87, [(upToFive, st 83), (one 93, st 460)]),
  (88, [(one 46, st 80), (digit, st 89)]),
  (89, [(one 46, st 80), (digit, st 79)]),
  (90, [(one 46, st 80), (notFive, st 79), (one 53, st 91)]),
  (91, [(one 46, st 80), (upToFive, st 79)]),
  (92, [(one 46, st 76), (digit, st 93)]),
  (93, [(one 46, st 76), (digit, st 75)]),
  (94, [(one 46, st 76), (notFive, st 75), (one 53, st 95)]),
  (95, [(one 46, st 76), (upToFive, st 75)]),
  (96, [(one 46, st 72), (xdigit, st 97), (one 58, st 100)]),
  (97, [(xdigit, st 98), (one 58, st 100)]),
  (98, [(xdigit, st 99), (one 58, st 100)]),
  (99, [(one 58, st 100)]),
  (100, [(xdigit, st 101), (one 58, st 83)]),
  (101, [(xdigit, st 102), (one 93, st 460)]),
  (102, [(xdigit, st 103), (one 93, st 460)]),
  (103, [(xdigit, st 83), (one 93, st 460)]),
  (104, [(one 46, st 72), (digit, st 105), (one 58, st 100), (xalpha, st 97)]),
  (105, [(one 46, st 72), (digit, st 106), (one 58, st 100), (xalpha, st 98)]),
  (106, [(one 46, st 72), (xdigit, st 99), (one 58, st 100)]),
  (107, [(one 46, st 72), (notFive, st 108), (one 53, st 109), (one 58, st 100), (xalpha, st 97)]),
  (108, [(one 46, st 72), (xdigit, st 98), (one 58, st 100)]),
  (109, [(one 46, st 72), (upToFive, st 106), (sixUp, st 98), (one 58, st 100)]),
  (110, [(one 46, st 72), (digit, st 108), (one 58, st 100), (xalpha, st 97)]),
  (111, [(xdigit, st 101)]),
  (112, [(xdigit, st 97), (one 58, st 100)]),
  (113, [(one 2, st 69), (one 48, st 114), (one 49, st 118), (one 50, st 121), (threeUp, st 124),
    (xalpha, st 125)]),
  (114, [(one 46, st 72), (xdigit, st 115), (one 58, st 111)]),
  (115, [(xdigit, st 116), (one 58, st 111)]),
  (116, [(xdigit, st 117), (one 58, st 111)]),
  (117, [(one 58, st 111)]),
  (118, [(one 46, st 72), (digit, st 119), (one 58, st 111), (xalpha, st 115)]),
  (119, [(one 46, st 72), (digit, st 120), (one 58, st 111), (xalpha, st 116)]),
  (120, [(one 46, st 72), (xdigit, st 117), (one 58, st 111)]),
  (121, [(one 46, st 72), (notFive, st 122), (one 53, st 123), (one 58, st 111), (xalpha, st 115)]),
  (122, [(one 46, st 72), (xdigit, st 116), (one 58, st 111)]),
  (123, [(one 46, st 72), (upToFive, st 120), (sixUp, st 116), (one 58, st 111)]),
  (124, [(one 46, st 72), (digit, st 122), (one 58, st 111), (xalpha, st 115)]),
  (125, [(xdigit, st 115), (one 58, st 111)]),
  (126, [(xdigit, st 127)]),
  (127, [(xdigit, st 128), (one 58, st 113)]),
  (128, [(xdigit, st 129), (one 58, st 113)]),
  (129, [(xdigit, st 130), (one 58, st 113)]),
  (130, [(one 58, st 113)]),
  (131, [(xdigit, st 132)]),
  (132, [(xdigit, st 133), (one 58, st 126)]),
  (133, [(xdigit, st 134), (one 58, st 126)]),
  (134, [(xdigit, st 135), (one 58, st 126)]),
  (135, [(one 58, st 126)]),
  (136, [(xdigit, st 137)]),
  (137, [(xdigit, st 138), (one 58, st 131)]),
  (138, [(xdigit, st 139), (one 58, st 131)]),
  (139, [(xdigit, st 140), (one 58, st 131)]),
  (140, [(one 58, st 131)]),
  (141, [(xdigit, st 142)]),
  (142, [(xdigit, st 143), (one 58, st 136)]),
  (143, [(xdigit, st 144), (one 58, st 136)]),
  (144, [(xdigit, st 145), (one 58, st 136)]),
  (145, [(one 58, st 136)]),
  (146, [(one 58, st 147)]),
  (147, [(one 2, st 69), (one 48, st 148), (one 49, st 217), (one 50, st 220), (threeUp, st 223),
    (xalpha, st 224), (one 93, st 460)]),
  (148, [(one 46, st 72), (xdigit, st 149), (one 58, st 152), (one 93, st 460)]),
  (149, [(xdigit, st 150), (one 58, st 152), (one 93, st 460)]),
  (150, [(xdigit, st 151), (one 58, st 152), (one 93, st 460)]),
  (151, [(one 58, st 152), (one 93, st 460)]),
  (152, [(one 2, st 69), (one 48, st 153), (one 49, st 209), (one 50, st 212), (threeUp, st 215),
    (xalpha, st 216)]),
  (153, [(one 46, st 72), (xdigit, st 154), (one 58, st 157), (one 93, st 460)]),
  (154, [(xdigit, st 155), (one 58, st 157), (one 93, st 460)]),
  (155, [(xdigit, st 156), (one 58, st 157), (one 93, st 460)]),
  (156, [(one 58, st 157), (one 93, st 460)]),
  (157, [(one 2, st 69), (one 48, st 158), (one 49, st 201), (one 50, st 204), (threeUp, st 207),
    (xalpha, st 208)]),
  (158, [(one 46, st 72), (xdigit, st 159), (one 58, st 162), (one 93, st 460)]),
  (159, [(xdigit, st 160), (one 58, st 162), (one 93, st 460)]),
  (160, [(xdigit, st 161), (one 58, st 162), (one 93, st 460)]),
  (161, [(one 58, st 162), (one 93, st 460)]),
  (162, [(one 2, st 69), (one 48, st 163), (one 49, st 193), (one 50, st 196), (threeUp, st 199),
    (xalpha, st 200)]),
  (163, [(one 46, st 72), (xdigit, st 164), (one 58, st 167), (one 93, st 460)]),
  (164, [(xdigit, st 165), (one 58, st 167), (one 93, st 460)]),
  (165, [(xdigit, st 166), (one 58, st 167), (one 93, st 460)]),
  (166, [(one 58, st 167), (one 93, st 460)]),
  (167, [(one 2, st 69), (one 48, st 168), (one 49, st 185), (one 50, st 188), (threeUp, st 191),
    (xalpha, st 192)]),
  (168, [(one 46, st 72), (xdigit, st 169), (one 58, st 172), (one 93, st 460)]),
  (169, [(xdigit, st 170), (one 58, st 172), (one 93, st 460)]),
  (170, [(xdigit, st 171), (one 58, st 172), (one 93, st 460)]),
  (171, [(one 58, st 172), (one 93, st 460)]),
  (172, [(one 2, st 69), (one 48, st 173), (one 49, st 177), (one 50, st 180), (threeUp, st 183),
    (xalpha, st 184)]),
  (173, [(one 46, st 72), (xdigit, st 174), (one 58, st 111), (one 93, st 460)]),
  (174, [(xdigit, st 175), (one 58, st 111), (one 93, st 460)]),
  (175, [(xdigit, st 176), (one 58, st 111), (one 93, st 460)]),
  (176, [(one 58, st 111), (one 93, st 460)]),
  (177, [(one 46, st 72), (digit, st 178), (one 58, st 111), (xalpha, st 174), (one 93, st 460)]),
  (178, [(one 46, st 72), (digit, st 179), (one 58, st 111), (xalpha, st 175), (one 93, st 460)]),
  (179, [(one 46, st 72), (xdigit, st 176), (one 58, st 111), (one 93, st 460)]),
  (180, [(one 46, st 72), (notFive, st 181), (one 53, st 182), (one 58, st 111), (xalpha, st 174),
    (one 93, st 460)]),
  (181, [(one 46, st 72), (xdigit, st 175), (one 58, st 111), (one 93, st 460)]),
  (182, [(one 46, st 72), (upToFive, st 179), (sixUp, st 175), (one 58, st 111), (one 93, st 460)]),
  (183, [(one 46, st 72), (digit, st 181), (one 58, st 111), (xalpha, st 174), (one 93, st 460)]),
  (184, [(xdigit, st 174), (one 58, st 111), (one 93, st 460)]),
  (185, [(one 46, st 72), (digit, st 186), (one 58, st 172), (xalpha, st 169), (one 93, st 460)]),
  (186, [(one 46, st 72), (digit, st 187), (one 58, st 172), (xalpha, st 170), (one 93, st 460)]),
  (187, [(one 46, st 72), (xdigit, st 171), (one 58, st 172), (one 93, st 460)]),
  (188, [(one 46, st 72), (notFive, st 189), (one 53, st 190), (one 58, st 172), (xalpha, st 169),
    (one 93, st 460)]),
  (189, [(one 46, st 72), (xdigit, st 170), (one 58, st 172), (one 93, st 460)]),
  (190, [(one 46, st 72), (upToFive, st 187), (sixUp, st 170), (one 58, st 172), (one 93, st 460)]),
  (191, [(one 46, st 72), (digit, st 189), (one 58, st 172), (xalpha, st 169), (one 93, st 460)]),
  (192, [(xdigit, st 169), (one 58, st 172), (one 93, st 460)]),
  (193, [(one 46, st 72), (digit, st 194), (one 58, st 167), (xalpha, st 164), (one 93, st 460)]),
  (194, [(one 46, st 72), (digit, st 195), (one 58, st 167), (xalpha, st 165), (one 93, st 460)]),
  (195, [(one 46, st 72), (xdigit, st 166), (one 58, st 167), (one 93, st 460)]),
  (196, [(one 46, st 72), (notFive, st 197), (one 53, st 198), (one 58, st 167), (xalpha, st 164),
    (one 93, st 460)]),
  (197, [(one 46, st 72), (xdigit, st 165), (one 58, st 167), (one 93, st 460)]),
  (198, [(one 46, st 72), (upToFive, st 195), (sixUp, st 165), (one 58, st 167), (one 93, st 460)]),
  (199, [(one 46, st 72), (digit, st 197), (one 58, st 167), (xalpha, st 164), (one 93, st 460)]),
  (200, [(xdigit, st 164), (one 58, st 167), (one 93, st 460)]),
  (201, [(one 46, st 72), (digit, st 202), (one 58, st 162), (xalpha, st 159), (one 93, st 460)]),
  (202, [(one 46, st 72), (digit, st 203), (one 58, st 162), (xalpha, st 160), (one 93, st 460)]),
  (203, [(one 46, st 72), (xdigit, st 161), (one 58, st 162), (one 93, st 460)]),
  (204, [(one 46, st 72), (notFive, st 205), (one 53, st 206), (one 58, st 162), (xalpha, st 159),
    (one 93, st 460)]),
  (205, [(one 46, st 72), (xdigit, st 160), (one 58, st 162), (one 93, st 460)]),
  (206, [(one 46, st 72), (upToFive, st 203), (sixUp, st 160), (one 58, st 162), (one 93, st 460)]),
  (207, [(one 46, st 72), (digit, st 205), (one 58, st 162), (xalpha, st 159), (one 93, st 460)]),
  (208, [(xdigit, st 159), (one 58, st 162), (one 93, st 460)]),
  (209, [(one 46, st 72), (digit, st 210), (one 58, st 157), (xalpha, st 154), (one 93, st 460)]),
  (210, [(one 46, st 72), (digit, st 211), (one 58, st 157), (xalpha, st 155), (one 93, st 460)]),
  (211, [(one 46, st 72), (xdigit, st 156), (one 58, st 157), (one 93, st 460)]),
  (212, [(one 46, st 72), (notFive, st 213), (one 53, st 214), (one 58, st 157), (xalpha, st 154),
    (one 93, st 460)]),
  (213, [(one 46, st 72), (xdigit, st 155), (one 58, st 157), (one 93, st 460)]),
  (214, [(one 46, st 72), (upToFive, st 211), (sixUp, st 155), (one 58, st 157), (one 93, st 460)]),
  (215, [(one 46, st 72), (digit, st 213), (one 58, st 157), (xalpha, st 154), (one 93, st 460)]),
  (216, [(xdigit, st 154), (one 58, st 157), (one 93, st 460)]),
  (217, [(one 46, st 72), (digit, st 218), (one 58, st 152), (xalpha, st 149), (one 93, st 460)]),
  (218, [(one 46, st 72), (digit, st 219), (one 58, st 152), (xalpha, st 150), (one 93, st 460)]),
  (219, [(one 46, st 72), (xdigit, st 151), (one 58, st 152), (one 93, st 460)]),
  (220, [(one 46, st 72), (notFive, st 221), (one 53, st 222), (one 58, st 152), (xalpha, st 149),
    (one 93, st 460)]),
  (221, [(one 46, st 72), (xdigit, st 150), (one 58, st 152), (one 93, st 460)]),
  (222, [(one 46, st 72), (upToFive, st 219), (sixUp, st 150), (one 58, st 152), (one 93, st 460)]),
  (223, [(one 46, st 72), (digit, st 221), (one 58, st 152), (xalpha, st 149), (one 93, st 460)]),
  (224, [(xdigit, st 149), (one 58, st 152), (one 93, st 460)]),
  (225, [(xdigit, st 226)]),
  (226, [(one 46, st 227), (xdigit, st 226)]),
  (227, [(userinfo, st 228)]),
  (228, [(userinfo, st 228), (one 93, st 460)]),
  (229, [(upToFour, st 230)]),
  (230, [(digit, st 231)]),
  (231, [(one 46, st 232)]),
  (232, [(one 2, st 233), (one 48, st 235), (one 49, st 249), (one 50, st 251), (threeUp, st 250)]),
  (233, [(upToFour, st 234)]),
  (234, [(digit, st 235)]),
  (235, [(one 46, st 236)]),
  (236, [(one 2, st 237), (one 48, st 239), (one 49, st 245), (one 50, st 247), (threeUp, st 246)]),
  (237, [(upToFour, st 238)]),
  (238, [(digit, st 239)]),
  (239, [(one 46, st 240)]),
  (240, [(one 2, st 241), (one 48, st 512), (one 49, st 516), (one 50, st 518), (threeUp, st 517)]),
  (241, [(upToFour, st 242)]),
  (242, [(digit, st 512)]),
  (243, [(xdigit, st 244)]),
  (244, [(xdigit, st 513)]),
  (245, [(one 46, st 240), (digit, st 246)]),
  (246, [(one 46, st 240), (digit, st 239)]),
  (247, [(one 46, st 240), (notFive, st 239), (one 53, st 248)]),
  (248, [(one 46, st 240), (upToFive, st 239)]),
  (249, [(one 46, st 236), (digit, st 250)]),
  (250, [(one 46, st 236), (digit, st 235)]),
  (251, [(one 46, st 236), (notFive, st 235), (one 53, st 252)]),
  (252, [(one 46, st 236), (upToFive, st 235)]),
  (253, [(xdigit, st 254)]),
  (254, [(xdigit, st 520)]),
  (255, [(userinfo, st 255), (one 37, st 256), (one 64, tr 263)]),
  (256, [(xdigit, st 257)]),
  (257, [(xdigit, st 255)]),
  (258, [(xdigit, st 259)]),
  (259, [(xdigit, st 523)]),
  (260, [(xdigit, st 261), (one 58, st 368), (one 118, st 447)]),
  (261, [(xdigit, st 262), (one 58, st 265)]),
  (262, [(xdigit, st 263), (one 58, st 265)]),
  (263, [(xdigit, st 264), (one 58, st 265)]),
  (264, [(one 58, st 265)]),
  (265, [(xdigit, st 266), (one 58, st 363)]),
  (266, [(xdigit, st 267), (one 58, st 270)]),
  (267, [(xdigit, st 268), (one 58, st 270)]),
  (268, [(xdigit, st 269), (one 58, st 270)]),
  (269, [(one 58, st 270)]),
  (270, [(xdigit, st 271), (one 58, st 358)]),
  (271, [(xdigit, st 272), (one 58, st 275)]),
  (272, [(xdigit, st 273), (one 58, st 275)]),
  (273, [(xdigit, st 274), (one 58, st 275)]),
  (274, [(one 58, st 275)]),
  (275, [(xdigit, st 276), (one 58, st 353)]),
  (276, [(xdigit, st 277), (one 58, st 280)]),
  (277, [(xdigit, st 278), (one 58, st 280)]),
  (278, [(xdigit, st 279), (one 58, st 280)]),
  (279, [(one 58, st 280)]),
  (280, [(xdigit, st 281), (one 58, st 348)]),
  (281, [(xdigit, st 282), (one 58, st 285)]),
  (282, [(xdigit, st 283), (one 58, st 285)]),
  (283, [(xdigit, st 284), (one 58, st 285)]),
  (284, [(one 58, st 285)]),
  (285, [(xdigit, st 286), (one 58, st 335)]),
  (286, [(xdigit, st 287), (one 58, st 290)]),
  (287, [(xdigit, st 288), (one 58, st 290)]),
  (288, [(xdigit, st 289), (one 58, st 290)]),
  (289, [(one 58, st 290)]),
  (290, [(one 2, st 291), (one 48, st 318), (one 49, st 326), (one 50, st 329), (threeUp, st 332),
    (one 58, st 333), (xalpha, st 334)]),
  (291, [(upToFour, st 292)]),
  (292, [(digit, st 293)]),
  (293, [(one 46, st 294)]),
  (294, [(one 2, st 295), (one 48, st 297), (one 49, st 314), (one 50, st 316), (threeUp, st 315)]),
  (295, [(upToFour, st 296)]),
  (296, [(digit, st 297)]),
  (297, [(one 46, st 298)]),
  (298, [(one 2, st 299), (one 48, st 301), (one 49, st 310), (one 50, st 312), (threeUp, st 311)]),
  (299, [(upToFour, st 300)]),
  (300, [(digit, st 301)]),
  (301, [(one 46, st 302)]),
  (302, [(one 2, st 303), (one 48, st 305), (one 49, st 306), (one 50, st 308), (threeUp, st 307)]),
  (303, [(upToFour, st 304)]),
  (304, [(digit, st 305)]),
  (305, [(one 93, st 512)]),
  (306, [(digit, st 307), (one 93, st 512)]),
  (307, [(digit, st 305), (one 93, st 512)]),
  (308, [(notFive, st 305), (one 53, st 309), (one 93, st 512)]),
  (309, [(upToFive, st 305), (one 93, st 512)]),
  (310, [(one 46, st 302), (digit, st 311)]),
  (311, [(one 46, st 302), (digit, st 301)]),
  (312, [(one 46, st 302), (notFive, st 301), (one 53, st 313)]),
  (313, [(one 46, st 302), (upToFive, st 301)]),
  (314, [(one 46, st 298), (digit, st 315)]),
  (315, [(one 46, st 298), (digit, st 297)]),
  (316, [(one 46, st 298), (notFive, st 297), (one 53, st 317)]),
  (317, [(one 46, st 298), (upToFive, st 297)]),
  (318, [(one 46, st 294), (xdigit, st 319), (one 58, st 322)]),
  (319, [(xdigit, st 320), (one 58, st 322)]),
  (320, [(xdigit, st 321), (one 58, st 322)]),
  (321, [(one 58, st 322)]),
  (322, [(xdigit, st 323), (one 58, st 305)]),
  (323, [(xdigit, st 324), (one 93, st 512)]),
  (324, [(xdigit, st 325), (one 93, st 512)]),
  (325, [(xdigit, st 305), (one 93, st 512)]),
  (326, [(one 46, st 294), (digit, st 327), (one 58, st 322), (xalpha, st 319)]),
  (327, [(one 46, st 294), (digit, st 328), (one 58, st 322), (xalpha, st 320)]),
  (328, [(one 46, st 294), (xdigit, st 321), (one 58, st 322)]),
  (329, [(one 46, st 294), (notFive, st 330), (one 53, st 331), (one 58, st 322),
    (xalpha, st 319)]),
  (330, [(one 46, st 294), (xdigit, st 320), (one 58, st 322)]),
  (331, [(one 46, st 294), (upToFive, st 328), (sixUp, st 320), (one 58, st 322)]),
  (332, [(one 46, st 294), (digit, st 330), (one 58, st 322), (xalpha, st 319)]),
  (333, [(xdigit, st 323)]),
  (334, [(xdigit, st 319), (one 58, st 322)]),
  (335, [(one 2, st 291), (one 48, st 336), (one 49, st 340), (one 50, st 343), (threeUp, st 346),
    (xalpha, st 347)]),
  (336, [(one 46, st 294), (xdigit, st 337), (one 58, st 333)]),
  (337, [(xdigit, st 338), (one 58, st 333)]),
  (338, [(xdigit, st 339), (one 58, st 333)]),
  (339, [(one 58, st 333)]),
  (340, [(one 46, st 294), (digit, st 341), (one 58, st 333), (xalpha, st 337)]),
  (341, [(one 46, st 294), (digit, st 342), (one 58, st 333), (xalpha, st 338)]),
  (342, [(one 46, st 294), (xdigit, st 339), (one 58, st 333)]),
  (343, [(one 46, st 294), (notFive, st 344), (one 53, st 345), (one 58, st 333),
    (xalpha, st 337)]),
  (344, [(one 46, st 294), (xdigit, st 338), (one 58, st 333)]),
  (345, [(one 46, st 294), (upToFive, st 342), (sixUp, st 338), (one 58, st 333)]),
  (346, [(one 46, st 294), (digit, st 344), (one 58, st 333), (xalpha, st 337)]),
  (347, [(xdigit, st 337), (one 58, st 333)]),
  (348, [(xdigit, st 349)]),
  (349, [(xdigit, st 350), (one 58, st 335)]),
  (350, [(xdigit, st 351), (one 58, st 335)]),
  (351, [(xdigit, st 352), (one 58, st 335)]),
  (352, [(one 58, st 335)]),
  (353, [(xdigit, st 354)]),
  (354, [(xdigit, st 355), (one 58, st 348)]),
  (355, [(xdigit, st 356), (one 58, st 348)]),
  (356, [(xdigit, st 357), (one 58, st 348)]),
  (357, [(one 58, st 348)]),
  (358, [(xdigit, st 359)]),
  (359, [(xdigit, st 360), (one 58, st 353)]),
  (360, [(xdigit, st 361), (one 58, st 353)]),
  (361, [(xdigit, st 362), (one 58, st 353)]),
  (362, [(one 58, st 353)]),
  (363, [(xdigit, st 364)]),
  (364, [(xdigit, st 365), (one 58, st 358)]),
  (365, [(xdigit, st 366), (one 58, st 358)]),
  (366, [(xdigit, st 367), (one 58, st 358)]),
  (367, [(one 58, st 358)]),
  (368, [(one 58, st 369)]),
  (369, [(one 2, st 291), (one 48, st 370), (one 49, st 439), (one 50, st 442), (threeUp, st 445),
    (xalpha, st 446), (one 93, st 512)]),
  (370, [(one 46, st 294), (xdigit, st 371), (one 58, st 374), (one 93, st 512)]),
  (371, [(xdigit, st 372), (one 58, st 374), (one 93, st 512)]),
  (372, [(xdigit, st 373), (one 58, st 374), (one 93, st 512)]),
  (373, [(one 58, st 374), (one 93, st 512)]),
  (374, [(one 2, st 291), (one 48, st 375), (one 49, st 431), (one 50, st 434), (threeUp, st 437),
    (xalpha, st 438)]),
  (375, [(one 46, st 294), (xdigit, st 376), (one 58, st 379), (one 93, st 512)]),
  (376, [(xdigit, st 377), (one 58, st 379), (one 93, st 512)]),
  (377, [(xdigit, st 378), (one 58, st 379), (one 93, st 512)]),
  (378, [(one 58, st 379), (one 93, st 512)]),
  (379, [(one 2, st 291), (one 48, st 380), (one 49, st 423), (one 50, st 426), (threeUp, st 429),
    (xalpha, st 430)]),
  (380, [(one 46, st 294), (xdigit, st 381), (one 58, st 384), (one 93, st 512)]),
  (381, [(xdigit, st 382), (one 58, st 384), (one 93, st 512)]),
  (382, [(xdigit, st 383), (one 58, st 384), (one 93, st 512)]),
  (383, [(one 58, st 384), (one 93, st 512)]),
  (384, [(one 2, st 291), (one 48, st 385), (one 49, st 415), (one 50, st 418), (threeUp, st 421),
    (xalpha, st 422)]),
  (385, [(one 46, st 294), (xdigit, st 386), (one 58, st 389), (one 93, st 512)]),
  (386, [(xdigit, st 387), (one 58, st 389), (one 93, st 512)]),
  (387, [(xdigit, st 388), (one 58, st 389), (one 93, st 512)]),
  (388, [(one 58, st 389), (one 93, st 512)]),
  (389, [(one 2, st 291), (one 48, st 390), (one 49, st 407), (one 50, st 410), (threeUp, st 413),
    (xalpha, st 414)]),
  (390, [(one 46, st 294), (xdigit, st 391), (one 58, st 394), (one 93, st 512)]),
  (391, [(xdigit, st 392), (one 58, st 394), (one 93, st 512)]),
  (392, [(xdigit, st 393), (one 58, st 394), (one 93, st 512)]),
  (393, [(one 58, st 394), (one 93, st 512)]),
  (394, [(one 2, st 291), (one 48, st 395), (one 49, st 399), (one 50, st 402), (threeUp, st 405),
    (xalpha, st 406)]),
  (395, [(one 46, st 294), (xdigit, st 396), (one 58, st 333), (one 93, st 512)]),
  (396, [(xdigit, st 397), (one 58, st 333), (one 93, st 512)]),
  (397, [(xdigit, st 398), (one 58, st 333), (one 93, st 512)]),
  (398, [(one 58, st 333), (one 93, st 512)]),
  (399, [(one 46, st 294), (digit, st 400), (one 58, st 333), (xalpha, st 396), (one 93, st 512)]),
  (400, [(one 46, st 294), (digit, st 401), (one 58, st 333), (xalpha, st 397), (one 93, st 512)]),
  (401, [(one 46, st 294), (xdigit, st 398), (one 58, st 333), (one 93, st 512)]),
  (402, [(one 46, st 294), (notFive, st 403), (one 53, st 404), (one 58, st 333), (xalpha, st 396),
    (one 93, st 512)]),
  (403, [(one 46, st 294), (xdigit, st 397), (one 58, st 333), (one 93, st 512)]),
  (404, [(one 46, st 294), (upToFive, st 401), (sixUp, st 397), (one 58, st 333),
    (one 93, st 512)]),
  (405, [(one 46, st 294), (digit, st 403), (one 58, st 333), (xalpha, st 396), (one 93, st 512)]),
  (406, [(xdigit, st 396), (one 58, st 333), (one 93, st 512)]),
  (407, [(one 46, st 294), (digit, st 408), (one 58, st 394), (xalpha, st 391), (one 93, st 512)]),
  (408, [(one 46, st 294), (digit, st 409), (one 58, st 394), (xalpha, st 392), (one 93, st 512)]),
  (409, [(one 46, st 294), (xdigit, st 393), (one 58, st 394), (one 93, st 512)]),
  (410, [(one 46, st 294), (notFive, st 411), (one 53, st 412), (one 58, st 394), (xalpha, st 391),
    (one 93, st 512)]),
  (411, [(one 46, st 294), (xdigit, st 392), (one 58, st 394), (one 93, st 512)]),
  (412, [(one 46, st 294), (upToFive, st 409), (sixUp, st 392), (one 58, st 394),
    (one 93, st 512)]),
  (413, [(one 46, st 294), (digit, st 411), (one 58, st 394), (xalpha, st 391), (one 93, st 512)]),
  (414, [(xdigit, st 391), (one 58, st 394), (one 93, st 512)]),
  (415, [(one 46, st 294), (digit, st 416), (one 58, st 389), (xalpha, st 386), (one 93, st 512)]),
  (416, [(one 46, st 294), (digit, st 417), (one 58, st 389), (xalpha, st 387), (one 93, st 512)]),
  (417, [(one 46, st 294), (xdigit, st 388), (one 58, st 389), (one 93, st 512)]),
  (418, [(one 46, st 294), (notFive, st 419), (one 53, st 420), (one 58, st 389), (xalpha, st 386),
    (one 93, st 512)]),
  (419, [(one 46, st 294), (xdigit, st 387), (one 58, st 389), (one 93, st 512)]),
  (420, [(one 46, st 294), (upToFive, st 417), (sixUp, st 387), (one 58, st 389),
    (one 93, st 512)]),
  (421, [(one 46, st 294), (digit, st 419), (one 58, st 389), (xalpha, st 386), (one 93, st 512)]),
  (422, [(xdigit, st 386), (one 58, st 389), (one 93, st 512)]),
  (423, [(one 46, st 294), (digit, st 424), (one 58, st 384), (xalpha, st 381), (one 93, st 512)]),
  (424, [(one 46, st 294), (digit, st 425), (one 58, st 384), (xalpha, st 382), (one 93, st 512)]),
  (425, [(one 46, st 294), (xdigit, st 383), (one 58, st 384), (one 93, st 512)]),
  (426, [(one 46, st 294), (notFive, st 427), (one 53, st 428), (one 58, st 384), (xalpha, st 381),
    (one 93, st 512)]),
  (427, [(one 46, st 294), (xdigit, st 382), (one 58, st 384), (one 93, st 512)]),
  (428, [(one 46, st 294), (upToFive, st 425), (sixUp, st 382), (one 58, st 384),
    (one 93, st 512)]),
  (429, [(one 46, st 294), (digit, st 427), (one 58, st 384), (xalpha, st 381), (one 93, st 512)]),
  (430, [(xdigit, st 381), (one 58, st 384), (one 93, st 512)]),
  (431, [(one 46, st 294), (digit, st 432), (one 58, st 379), (xalpha, st 376), (one 93, st 512)]),
  (432, [(one 46, st 294), (digit, st 433), (one 58, st 379), (xalpha, st 377), (one 93, st 512)]),
  (433, [(one 46, st 294), (xdigit, st 378), (one 58, st 379), (one 93, st 512)]),
  (434, [(one 46, st 294), (notFive, st 435), (one 53, st 436), (one 58, st 379), (xalpha, st 376),
    (one 93, st 512)]),
  (435, [(one 46, st 294), (xdigit, st 377), (one 58, st 379), (one 93, st 512)]),
  (436, [(one 46, st 294), (upToFive, st 433), (sixUp, st 377), (one 58, st 379),
    (one 93, st 512)]),
  (437, [(one 46, st 294), (digit, st 435), (one 58, st 379), (xalpha, st 376), (one 93, st 512)]),
  (438, [(xdigit, st 376), (one 58, st 379), (one 93, st 512)]),
  (439, [(one 46, st 294), (digit, st 440), (one 58, st 374), (xalpha, st 371), (one 93, st 512)]),
  (440, [(one 46, st 294), (digit, st 441), (one 58, st 374), (xalpha, st 372), (one 93, st 512)]),
  (441, [(one 46, st 294), (xdigit, st 373), (one 58, st 374), (one 93, st 512)]),
  (442, [(one 46, st 294), (notFive, st 443), (one 53, st 444), (one 58, st 374), (xalpha, st 371),
    (one 93, st 512)]),
  (443, [(one 46, st 294), (xdigit, st 372), (one 58, st 374), (one 93, st 512)]),
  (444, [(one 46, st 294), (upToFive, st 441), (sixUp, st 372), (one 58, st 374),
    (one 93, st 512)]),
  (445, [(one 46, st 294), (digit, st 443), (one 58, st 374), (xalpha, st 371), (one 93, st 512)]),
  (446, [(xdigit, st 371), (one 58, st 374), (one 93, st 512)]),
  (447, [(xdigit, st 448)]),
  (448, [(one 46, st 449), (xdigit, st 448)]),
  (449, [(userinfo, st 450)]),
  (450, [(userinfo, st 450), (one 93, st 512)]),
  (451, [([(-128, -1), (33, 33), (36, 36), (38, 46), (48, 57), (59, 59), (61, 61), (64, 64),
      (95, 95), (126, 126)], st 452), (one 35, st 453), (one 37, st 3), (one 47, st 458),
    (one 63, st 456), (alpha, tr 461)]),
  (452, [(pcharNc, st 452), (one 35, st 453), (one 37, st 3), (one 47, st 455), (one 63, st 456)]),
  (453, [(query, tr 462), (one 37, tr 463)]),
  (454, [(query, st 454), (one 37, st 1)]),
  (455, [(path, st 455), (one 35, st 453), (one 37, st 5), (one 63, st 456)]),
  (456, [(query, tr 466), (one 35, tr 467), (one 37, tr 468)]),
  (457, [(query, st 457), (one 35, tr 469), (one 37, st 7)]),
  (458, [(pchar, st 455), (one 35, st 453), (one 37, st 5), (one 47, st 459), (one 63, st 456)]),
  (459, [(one 2, tr 472), (regAlphaDot, tr 473), (one 35, tr 474), (one 37, tr 475),
    (one 47, tr 476), (one 48, tr 477), (one 49, tr 478), (one 50, tr 479), (threeUp, tr 480),
    (one 58, tr 481), (one 63, tr 482), (one 64, tr 483), (one 91, tr 484)]),
  (460, [(one 35, tr 485), (one 47, tr 486), (one 58, tr 487), (one 63, tr 488)]),
  (461, [(one 35, tr 489), (one 47, tr 490), (digit, tr 491), (one 63, tr 492)]),
  (462, [(one 35, tr 493), (one 47, tr 494), (digit, st 462), (one 63, tr 496)]),
  (463, [(one 35, tr 485), (one 47, tr 486), (digit, st 464), (one 58, tr 487), (one 63, tr 488)]),
  (464, [(one 35, tr 485), (one 47, tr 486), (digit, st 460), (one 58, tr 487), (one 63, tr 488)]),
  (465, [(one 35, tr 485), (one 47, tr 486), (notFive, st 460), (one 53, st 466), (one 58, tr 487),
    (one 63, tr 488)]),
  (466, [(one 35, tr 485), (one 47, tr 486), (upToFive, st 460), (one 58, tr 487),
    (one 63, tr 488)]),
  (467, [(regName, st 467), (one 35, tr 485), (one 37, st 31), (one 47, tr 486), (one 58, tr 499),
    (one 63, tr 488), (one 64, tr 38)]),
  (468, [(userNoDigit, st 33), (one 35, tr 489), (one 37, st 34), (one 47, tr 490), (digit, tr 500),
    (one 63, tr 492), (one 64, tr 38)]),
  (469, [(one 2, tr 472), (regAlphaDot, tr 501), (one 35, tr 474), (one 37, tr 502),
    (one 47, tr 476), (one 48, tr 503), (one 49, tr 504), (one 50, tr 505), (threeUp, tr 506),
    (one 58, tr 507), (one 63, tr 482), (one 91, tr 484)]),
  (470, [(regName, st 470), (one 35, tr 485), (one 37, st 36), (one 47, tr 486), (one 58, tr 487),
    (one 63, tr 488)]),
  (471, [(regNoDot, st 470), (one 35, tr 485), (one 37, st 36), (one 46, st 472), (one 47, tr 486),
    (one 58, tr 487), (one 63, tr 488)]),
  (472, [(one 2, st 13), (regAlphaDot, st 470), (one 35, tr 485), (one 37, st 36), (one 47, tr 486),
    (one 48, st 473), (one 49, st 481), (one 50, st 483), (threeUp, st 482), (one 58, tr 487),
    (one 63, tr 488)]),
  (473, [(regNoDot, st 470), (one 35, tr 485), (one 37, st 36), (one 46, st 474), (one 47, tr 486),
    (one 58, tr 487), (one 63, tr 488)]),
  (474, [(one 2, st 17), (regAlphaDot, st 470), (one 35, tr 485), (one 37, st 36), (one 47, tr 486),
    (one 48, st 475), (one 49, st 477), (one 50, st 479), (threeUp, st 478), (one 58, tr 487),
    (one 63, tr 488)]),
  (475, [(regNoDot, st 470), (one 35, tr 485), (one 37, st 36), (one 46, st 476), (one 47, tr 486),
    (one 58, tr 487), (one 63, tr 488)]),
  (476, [(one 2, st 21), (regName, st 470), (one 35, tr 485), (one 37, st 36), (one 47, tr 486),
    (one 58, tr 487), (one 63, tr 488)]),
  (477, [(regAlpha, st 470), (one 35, tr 485), (one 37, st 36), (one 46, st 476), (one 47, tr 486),
    (digit, st 478), (one 58, tr 487), (one 63, tr 488)]),
  (478, [(regAlpha, st 470), (one 35, tr 485), (one 37, st 36), (one 46, st 476), (one 47, tr 486),
    (digit, st 475), (one 58, tr 487), (one 63, tr 488)]),
  (479, [(regAlpha, st 470), (one 35, tr 485), (one 37, st 36), (one 46, st 476), (one 47, tr 486),
    (notFive, st 475), (one 53, st 480), (one 58, tr 487), (one 63, tr 488)]),
  (480, [(regSixUp, st 470), (one 35, tr 485), (one 37, st 36), (one 46, st 476), (one 47, tr 486),
    (upToFive, st 475), (one 58, tr 487), (one 63, tr 488)]),
  (481, [(regAlpha, st 470), (one 35, tr 485), (one 37, st 36), (one 46, st 474), (one 47, tr 486),
    (digit, st 482), (one 58, tr 487), (one 63, tr 488)]),
  (482, [(regAlpha, st 470), (one 35, tr 485), (one 37, st 36), (one 46, st 474), (one 47, tr 486),
    (digit, st 473), (one 58, tr 487), (one 63, tr 488)]),
  (483, [(regAlpha, st 470), (one 35, tr 485), (one 37, st 36), (one 46, st 474), (one 47, tr 486),
    (notFive, st 473), (one 53, st 484), (one 58, tr 487), (one 63, tr 488)]),
  (484, [(regSixUp, st 470), (one 35, tr 485), (one 37, st 36), (one 46, st 474), (one 47, tr 486),
    (upToFive, st 473), (one 58, tr 487), (one 63, tr 488)]),
  (485, [(regAlpha, st 470), (one 35, tr 485), (one 37, st 36), (one 46, st 472), (one 47, tr 486),
    (digit, st 486), (one 58, tr 487), (one 63, tr 488)]),
  (486, [(regAlpha, st 470), (one 35, tr 485), (one 37, st 36), (one 46, st 472), (one 47, tr 486),
    (digit, st 471), (one 58, tr 487), (one 63, tr 488)]),
  (487, [(regAlpha, st 470), (one 35, tr 485), (one 37, st 36), (one 46, st 472), (one 47, tr 486),
    (notFive, st 471), (one 53, st 488), (one 58, tr 487), (one 63, tr 488)]),
  (488, [(regSixUp, st 470), (one 35, tr 485), (one 37, st 36), (one 46, st 472), (one 47, tr 486),
    (upToFive, st 471), (one 58, tr 487), (one 63, tr 488)]),
  (489, [(userNoDigit, st 33), (one 35, tr 493), (one 37, st 34), (one 47, tr 494), (digit, st 489),
    (one 63, tr 496), (one 64, tr 38)]),
  (490, [(regNoDot, st 467), (one 35, tr 485), (one 37, st 31), (one 46, st 491), (one 47, tr 486),
    (one 58, tr 499), (one 63, tr 488), (one 64, tr 38)]),
  (491, [(one 2, st 13), (regAlphaDot, st 467), (one 35, tr 485), (one 37, st 31), (one 47, tr 486),
    (one 48, st 492), (one 49, st 500), (one 50, st 502), (threeUp, st 501), (one 58, tr 499),
    (one 63, tr 488), (one 64, tr 38)]),
  (492, [(regNoDot, st 467), (one 35, tr 485), (one 37, st 31), (one 46, st 493), (one 47, tr 486),
    (one 58, tr 499), (one 63, tr 488), (one 64, tr 38)]),
  (493, [(one 2, st 17), (regAlphaDot, st 467), (one 35, tr 485), (one 37, st 31), (one 47, tr 486),
    (one 48, st 494), (one 49, st 496), (one 50, st 498), (threeUp, st 497), (one 58, tr 499),
    (one 63, tr 488), (one 64, tr 38)]),
  (494, [(regNoDot, st 467), (one 35, tr 485), (one 37, st 31), (one 46, st 495), (one 47, tr 486),
    (one 58, tr 499), (one 63, tr 488), (one 64, tr 38)]),
  (495, [(one 2, st 21), (regName, st 467), (one 35, tr 485), (one 37, st 31), (one 47, tr 486),
    (one 58, tr 499), (one 63, tr 488), (one 64, tr 38)]),
  (496, [(regAlpha, st 467), (one 35, tr 485), (one 37, st 31), (one 46, st 495), (one 47, tr 486),
    (digit, st 497), (one 58, tr 499), (one 63, tr 488), (one 64, tr 38)]),
  (497, [(regAlpha, st 467), (one 35, tr 485), (one 37, st 31), (one 46, st 495), (one 47, tr 486),
    (digit, st 494), (one 58, tr 499), (one 63, tr 488), (one 64, tr 38)]),
  (498, [(regAlpha, st 467), (one 35, tr 485), (one 37, st 31), (one 46, st 495), (one 47, tr 486),
    (notFive, st 494), (one 53, st 499), (one 58, tr 499), (one 63, tr 488), (one 64, tr 38)]),
  (499, [(regSixUp, st 467), (one 35, tr 485), (one 37, st 31), (one 46, st 495), (one 47, tr 486),
    (upToFive, st 494), (one 58, tr 499), (one 63, tr 488), (one 64, tr 38)]),
  (500, [(regAlpha, st 467), (one 35, tr 485), (one 37, st 31), (one 46, st 493), (one 47, tr 486),
    (digit, st 501), (one 58, tr 499), (one 63, tr 488), (one 64, tr 38)]),
  (501, [(regAlpha, st 467), (one 35, tr 485), (one 37, st 31), (one 46, st 493), (one 47, tr 486),
    (digit, st 492), (one 58, tr 499), (one 63, tr 488), (one 64, tr 38)]),
  (502, [(regAlpha, st 467), (one 35, tr 485), (one 37, st 31), (one 46, st 493), (one 47, tr 486),
    (notFive, st 492), (one 53, st 503), (one 58, tr 499), (one 63, tr 488), (one 64, tr 38)]),
  (503, [(regSixUp, st 467), (one 35, tr 485), (one 37, st 31), (one 46, st 493), (one 47, tr 486),
    (upToFive, st 492), (one 58, tr 499), (one 63, tr 488), (one 64, tr 38)]),
  (504, [(regAlpha, st 467), (one 35, tr 485), (one 37, st 31), (one 46, st 491), (one 47, tr 486),
    (digit, st 505), (one 58, tr 499), (one 63, tr 488), (one 64, tr 38)]),
  (505, [(regAlpha, st 467), (one 35, tr 485), (one 37, st 31), (one 46, st 491), (one 47, tr 486),
    (digit, st 490), (one 58, tr 499), (one 63, tr 488), (one 64, tr 38)]),
  (506, [(regAlpha, st 467), (one 35, tr 485), (one 37, st 31), (one 46, st 491), (one 47, tr 486),
    (notFive, st 490), (one 53, st 507), (one 58, tr 499), (one 63, tr 488), (one 64, tr 38)]),
  (507, [(regSixUp, st 467), (one 35, tr 485), (one 37, st 31), (one 46, st 491), (one 47, tr 486),
    (upToFive, st 490), (one 58, tr 499), (one 63, tr 488), (one 64, tr 38)]),
  (508, [([(-128, -1), (33, 33), (36, 36), (38, 42), (44, 44), (59, 59), (61, 61), (64, 64),
      (95, 95), (126, 126)], st 452), (one 35, st 453), (one 37, st 3),
    ([(43, 43), (45, 46), (48, 57), (65, 90), (97, 122)], st 508), (one 47, st 455),
    (one 58, tr 543), (one 63, st 456)]),
  (509, [(pchar, st 455), (one 35, st 453), (one 37, st 5), (one 47, st 510), (one 63, st 456)]),
  (510, [(pchar, st 455), (one 35, st 453), (one 37, st 5), (one 47, st 511), (one 63, st 456)]),
  (511, [(one 2, tr 546), (regAlphaDot, tr 547), (one 35, tr 548), (one 37, tr 549),
    (one 47, tr 550), (one 48, tr 551), (one 49, tr 552), (one 50, tr 553), (threeUp, tr 554),
    (one 58, tr 555), (one 63, tr 556), (one 64, tr 557), (one 91, tr 558)]),
  (512, [(one 35, tr 559), (one 47, tr 560), (one 58, tr 561), (one 63, tr 562)]),
  (513, [(path, st 513), (one 35, tr 563), (one 37, st 243), (one 63, tr 565)]),
  (514, [(one 35, tr 566), (one 47, tr 567), (digit, tr 568), (one 63, tr 569)]),
  (515, [(one 35, tr 570), (one 47, tr 571), (digit, st 515), (one 63, tr 573)]),
  (516, [(one 35, tr 559), (one 47, tr 560), (digit, st 517), (one 58, tr 561), (one 63, tr 562)]),
  (517, [(one 35, tr 559), (one 47, tr 560), (digit, st 512), (one 58, tr 561), (one 63, tr 562)]),
  (518, [(one 35, tr 559), (one 47, tr 560), (notFive, st 512), (one 53, st 519), (one 58, tr 561),
    (one 63, tr 562)]),
  (519, [(one 35, tr 559), (one 47, tr 560), (upToFive, st 512), (one 58, tr 561),
    (one 63, tr 562)]),
  (520, [(regName, st 520), (one 35, tr 559), (one 37, st 253), (one 47, tr 560), (one 58, tr 576),
    (one 63, tr 562), (one 64, tr 263)]),
  (521, [(userNoDigit, st 255), (one 35, tr 566), (one 37, st 256), (one 47, tr 567),
    (digit, tr 577), (one 63, tr 569), (one 64, tr 263)]),
  (522, [(one 2, tr 546), (regAlphaDot, tr 578), (one 35, tr 548), (one 37, tr 579),
    (one 47, tr 550), (one 48, tr 580), (one 49, tr 581), (one 50, tr 582), (threeUp, tr 583),
    (one 58, tr 584), (one 63, tr 556), (one 91, tr 558)]),
  (523, [(regName, st 523), (one 35, tr 559), (one 37, st 258), (one 47, tr 560), (one 58, tr 561),
    (one 63, tr 562)]),
  (524, [(regNoDot, st 523), (one 35, tr 559), (one 37, st 258), (one 46, st 525), (one 47, tr 560),
    (one 58, tr 561), (one 63, tr 562)]),
  (525, [(one 2, st 233), (regAlphaDot, st 523), (one 35, tr 559), (one 37, st 258),
    (one 47, tr 560), (one 48, st 526), (one 49, st 534), (one 50, st 536), (threeUp, st 535),
    (one 58, tr 561), (one 63, tr 562)]),
  (526, [(regNoDot, st 523), (one 35, tr 559), (one 37, st 258), (one 46, st 527), (one 47, tr 560),
    (one 58, tr 561), (one 63, tr 562)]),
  (527, [(one 2, st 237), (regAlphaDot, st 523), (one 35, tr 559), (one 37, st 258),
    (one 47, tr 560), (one 48, st 528), (one 49, st 530), (one 50, st 532), (threeUp, st 531),
    (one 58, tr 561), (one 63, tr 562)]),
  (528, [(regNoDot, st 523), (one 35, tr 559), (one 37, st 258), (one 46, st 529), (one 47, tr 560),
    (one 58, tr 561), (one 63, tr 562)]),
  (529, [(one 2, st 241), (regName, st 523), (one 35, tr 559), (one 37, st 258), (one 47, tr 560),
    (one 58, tr 561), (one 63, tr 562)]),
  (530, [(regAlpha, st 523), (one 35, tr 559), (one 37, st 258), (one 46, st 529), (one 47, tr 560),
    (digit, st 531), (one 58, tr 561), (one 63, tr 562)]),
  (531, [(regAlpha, st 523), (one 35, tr 559), (one 37, st 258), (one 46, st 529), (one 47, tr 560),
    (digit, st 528), (one 58, tr 561), (one 63, tr 562)]),
  (532, [(regAlpha, st 523), (one 35, tr 559), (one 37, st 258), (one 46, st 529), (one 47, tr 560),
    (notFive, st 528), (one 53, st 533), (one 58, tr 561), (one 63, tr 562)]),
  (533, [(regSixUp, st 523), (one 35, tr 559), (one 37, st 258), (one 46, st 529), (one 47, tr 560),
    (upToFive, st 528), (one 58, tr 561), (one 63, tr 562)]),
  (534, [(regAlpha, st 523), (one 35, tr 559), (one 37, st 258), (one 46, st 527), (one 47, tr 560),
    (digit, st 535), (one 58, tr 561), (one 63, tr 562)]),
  (535, [(regAlpha, st 523), (one 35, tr 559), (one 37, st 258), (one 46, st 527), (one 47, tr 560),
    (digit, st 526), (one 58, tr 561), (one 63, tr 562)]),
  (536, [(regAlpha, st 523), (one 35, tr 559), (one 37, st 258), (one 46, st 527), (one 47, tr 560),
    (notFive, st 526), (one 53, st 537), (one 58, tr 561), (one 63, tr 562)]),
  (537, [(regSixUp, st 523), (one 35, tr 559), (one 37, st 258), (one 46, st 527), (one 47, tr 560),
    (upToFive, st 526), (one 58, tr 561), (one 63, tr 562)]),
  (538, [(regAlpha, st 523), (one 35, tr 559), (one 37, st 258), (one 46, st 525), (one 47, tr 560),
    (digit, st 539), (one 58, tr 561), (one 63, tr 562)]),
  (539, [(regAlpha, st 523), (one 35, tr 559), (one 37, st 258), (one 46, st 525), (one 47, tr 560),
    (digit, st 524), (one 58, tr 561), (one 63, tr 562)]),
  (540, [(regAlpha, st 523), (one 35, tr 559), (one 37, st 258), (one 46, st 525), (one 47, tr 560),
    (notFive, st 524), (one 53, st 541), (one 58, tr 561), (one 63, tr 562)]),
  (541, [(regSixUp, st 523), (one 35, tr 559), (one 37, st 258), (one 46, st 525), (one 47, tr 560),
    (upToFive, st 524), (one 58, tr 561), (one 63, tr 562)]),
  (542, [(userNoDigit, st 255), (one 35, tr 570), (one 37, st 256), (one 47, tr 571),
    (digit, st 542), (one 63, tr 573), (one 64, tr 263)]),
  (543, [(regNoDot, st 520), (one 35, tr 559), (one 37, st 253), (one 46, st 544), (one 47, tr 560),
    (one 58, tr 576), (one 63, tr 562), (one 64, tr 263)]),
  (544, [(one 2, st 233), (regAlphaDot, st 520), (one 35, tr 559), (one 37, st 253),
    (one 47, tr 560), (one 48, st 545), (one 49, st 553), (one 50, st 555), (threeUp, st 554),
    (one 58, tr 576), (one 63, tr 562), (one 64, tr 263)]),
  (545, [(regNoDot, st 520), (one 35, tr 559), (one 37, st 253), (one 46, st 546), (one 47, tr 560),
    (one 58, tr 576), (one 63, tr 562), (one 64, tr 263)]),
  (546, [(one 2, st 237), (regAlphaDot, st 520), (one 35, tr 559), (one 37, st 253),
    (one 47, tr 560), (one 48, st 547), (one 49, st 549), (one 50, st 551), (threeUp, st 550),
    (one 58, tr 576), (one 63, tr 562), (one 64, tr 263)]),
  (547, [(regNoDot, st 520), (one 35, tr 559), (one 37, st 253), (one 46, st 548), (one 47, tr 560),
    (one 58, tr 576), (one 63, tr 562), (one 64, tr 263)]),
  (548, [(one 2, st 241), (regName, st 520), (one 35, tr 559), (one 37, st 253), (one 47, tr 560),
    (one 58, tr 576), (one 63, tr 562), (one 64, tr 263)]),
  (549, [(regAlpha, st 520), (one 35, tr 559), (one 37, st 253), (one 46, st 548), (one 47, tr 560),
    (digit, st 550), (one 58, tr 576), (one 63, tr 562), (one 64, tr 263)]),
  (550, [(regAlpha, st 520), (one 35, tr 559), (one 37, st 253), (one 46, st 548), (one 47, tr 560),
    (digit, st 547), (one 58, tr 576), (one 63, tr 562), (one 64, tr 263)]),
  (551, [(regAlpha, st 520), (one 35, tr 559), (one 37, st 253), (one 46, st 548), (one 47, tr 560),
    (notFive, st 547), (one 53, st 552), (one 58, tr 576), (one 63, tr 562), (one 64, tr 263)]),
  (552, [(regSixUp, st 520), (one 35, tr 559), (one 37, st 253), (one 46, st 548), (one 47, tr 560),
    (upToFive, st 547), (one 58, tr 576), (one 63, tr 562), (one 64, tr 263)]),
  (553, [(regAlpha, st 520), (one 35, tr 559), (one 37, st 253), (one 46, st 546), (one 47, tr 560),
    (digit, st 554), (one 58, tr 576), (one 63, tr 562), (one 64, tr 263)]),
  (554, [(regAlpha, st 520), (one 35, tr 559), (one 37, st 253), (one 46, st 546), (one 47, tr 560),
    (digit, st 545), (one 58, tr 576), (one 63, tr 562), (one 64, tr 263)]),
  (555, [(regAlpha, st 520), (one 35, tr 559), (one 37, st 253), (one 46, st 546), (one 47, tr 560),
    (notFive, st 545), (one 53, st 556), (one 58, tr 576), (one 63, tr 562), (one 64, tr 263)]),
  (556, [(regSixUp, st 520), (one 35, tr 559), (one 37, st 253), (one 46, st 546), (one 47, tr 560),
    (upToFive, st 545), (one 58, tr 576), (one 63, tr 562), (one 64, tr 263)]),
  (557, [(regAlpha, st 520), (one 35, tr 559), (one 37, st 253), (one 46, st 544), (one 47, tr 560),
    (digit, st 558), (one 58, tr 576), (one 63, tr 562), (one 64, tr 263)]),
  (558, [(regAlpha, st 520), (one 35, tr 559), (one 37, st 253), (one 46, st 544), (one 47, tr 560),
    (digit, st 543), (one 58, tr 576), (one 63, tr 562), (one 64, tr 263)]),
  (559, [(regAlpha, st 520), (one 35, tr 559), (one 37, st 253), (one 46, st 544), (one 47, tr 560),
    (notFive, st 543), (one 53, st 560), (one 58, tr 576), (one 63, tr 562), (one 64, tr 263)]),
  (560, [(regSixUp, st 520), (one 35, tr 559), (one 37, st 253), (one 46, st 544), (one 47, tr 560),
    (upToFive, st 543), (one 58, tr 576), (one 63, tr 562), (one 64, tr 263)])]

/-- The states that have actions at the end of the text, from the first to the last of a range. -/
def eofCases : List (Nat × Nat × List Action) := [
  (453, 453, [.mark, .saveFragment]),
  (454, 454, [.saveFragment]),
  (456, 456, [.mark, .saveQuery]),
  (457, 457, [.saveQuery]),
  (459, 459, [.mark, .saveHost]),
  (460, 460, [.saveHost]),
  (461, 461, [.mark, .savePort]),
  (462, 462, [.savePort]),
  (463, 467, [.saveHost]),
  (468, 468, [.mark, .savePort]),
  (469, 469, [.mark, .saveHost]),
  (470, 488, [.saveHost]),
  (489, 489, [.savePort]),
  (490, 507, [.saveHost]),
  (511, 511, [.mark, .saveHost, .savePath]),
  (512, 512, [.saveHost, .mark, .savePath]),
  (513, 513, [.savePath]),
  (514, 514, [.mark, .savePort, .savePath]),
  (515, 515, [.savePort, .mark, .savePath]),
  (516, 520, [.saveHost, .mark, .savePath]),
  (521, 521, [.mark, .savePort, .savePath]),
  (522, 522, [.mark, .saveHost, .savePath]),
  (523, 541, [.saveHost, .mark, .savePath]),
  (542, 542, [.savePort, .mark, .savePath]),
  (543, 560, [.saveHost, .mark, .savePath])]

/-- The actions at the end of the text. -/
def eofActions (cs : Nat) : List Action :=
  match eofCases.find? fun row => row.1 ≤ cs ∧ cs ≤ row.2.1 with
  | some row => row.2.2
  | none => []

end Table

/-! ## Running it -/

/-- What `stN:` and `trN:` do and where they end. -/
def target : Goto → List Action × Nat
  | .st n => ([], n)
  | .tr n => block n

/-- A `char` is signed. -/
def signed (c : UInt8) : Int := if c.toNat < 128 then c.toNat else c.toNat - 256

/-- The actions on a character, and the next state; `none` is `goto st0`. -/
def next (cs : Nat) (c : UInt8) : Option (List Action × Nat) :=
  (cases.lookup cs).bind fun edges => (Ranges.select edges (signed c)).map target

/-- The machine.  It leaves the loop in the error, and at the end of the text. -/
def control : Control Nat UInt8 Action where
  next := next
  halts := fun cs => cs == uriParserError
  refused := uriParserError
  halts_refused := rfl

end UriParser
end Routn
