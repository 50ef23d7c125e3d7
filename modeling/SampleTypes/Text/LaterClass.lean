import SampleTypes.Text.CharClass

/-!
# Characters of later versions

What the Unicode standard gained after version 14, as far as the words of source texts depend on
it: the characters that may start or continue a word since version 16, those that have a visible
form since version 17, and the characters that extend the one in front of them (version 17). The
tables are run lengths, as those of `CharClass`.

## Main results

* `isWord_of_isIdentifier`: what was an identifier in version 14 is still a word.
-/

namespace SampleTypes.Text.LaterClass

/-- Characters added since version 14 that may start a word. -/
def startRuns : List Nat :=
  [
   7305, 2, 35648, 3, 12, 3, 24035, 52, 1878, 28, 9, 23, 316, 3, 890, 2, 319, 10, 1, 1, 2, 1, 1,
   38, 1, 1, 25, 1, 1, 1, 2028, 33, 801, 1, 1, 13, 1, 34, 5371, 1, 17, 6, 25, 3995, 7429, 30,
   3106, 45, 8082, 1, 9266, 1, 34, 1, 11727, 6, 261, 62, 1122, 28, 228, 30, 2, 1, 53576, 1,
   13494, 622, 9458, 4192
  ]

/-- Characters that since version 14 were let in behind the start of a word. -/
def continueRuns : List Nat :=
  [
   2199, 1, 1115, 1, 474, 1, 4413, 2, 4333, 1, 52841, 1, 3546, 10, 31, 5, 398, 4, 833, 1, 374,
   9, 1, 1, 2, 1, 1, 4, 1, 5, 1, 1, 14, 2, 749, 20, 1292, 10, 774, 2, 1, 1, 48, 7, 3, 5, 13, 11,
   5349, 1, 6, 15, 11464, 28, 3126, 10, 24438, 10, 5013, 1, 1116, 14, 244, 2, 1, 10
  ]

/-- Characters that got a visible form after version 14. -/
def visibleRuns : List Nat :=
  [
   2191, 1, 7, 1, 964, 1, 127, 1, 22, 1, 474, 1, 3072, 15, 2, 12, 98, 2, 47, 1, 265, 2, 1078, 1,
   869, 3, 1900, 1, 1125, 4, 484, 2, 9, 1, 30171, 5, 2, 1, 1, 1, 5, 3, 20, 1, 21457, 16, 445, 2,
   54, 7, 2033, 52, 844, 26, 998, 38, 3, 29, 8, 2, 306, 6, 8, 9, 33, 6, 831, 3, 318, 10, 1, 1,
   2, 1, 1, 38, 1, 10, 1, 1, 2, 1, 1, 4, 1, 10, 1, 2, 8, 2, 749, 20, 1052, 10, 86, 8, 88, 34,
   14, 10, 438, 44, 4, 10, 278, 17, 1, 41, 3, 29, 5332, 1, 16, 22, 10, 3995, 7429, 58, 3078, 58,
   294, 25, 2, 25, 286, 5, 6145, 8, 1279, 1, 9, 22, 97, 115, 9023, 1, 34, 1, 6826, 253, 3, 436,
   6, 23, 15, 17, 975, 20, 3153, 6, 261, 62, 33, 1, 1088, 42, 214, 43, 4, 1, 192, 31, 1, 22, 8,
   2, 4056, 1, 3, 1, 151, 12, 89, 1, 216, 10, 4, 2, 14, 9, 379, 4, 29, 3, 15, 4, 3, 2, 29, 3,
   11, 5, 6, 1, 1, 1, 4, 3, 10, 3, 2, 1, 8, 3, 4, 1, 7, 2, 210, 37, 10, 1, 47934, 7, 5986, 12,
   7490, 622, 9458, 8490
  ]

/-- Characters that extend the one in front of them and do not stand alone. -/
def extenderRuns : List Nat :=
  [
   768, 112, 275, 7, 263, 45, 1, 1, 1, 2, 1, 2, 1, 1, 72, 11, 48, 21, 16, 1, 101, 7, 2, 6, 2, 2,
   1, 4, 35, 1, 30, 27, 91, 11, 58, 9, 9, 1, 24, 4, 1, 9, 1, 3, 1, 5, 43, 3, 59, 9, 42, 24, 1,
   32, 55, 1, 1, 1, 4, 8, 4, 1, 3, 7, 10, 2, 29, 1, 58, 1, 1, 1, 2, 4, 8, 1, 9, 1, 10, 2, 26, 1,
   2, 2, 57, 1, 4, 2, 4, 2, 2, 3, 3, 1, 30, 2, 3, 1, 11, 2, 57, 1, 4, 5, 1, 2, 4, 1, 20, 2, 22,
   6, 1, 1, 58, 1, 1, 2, 1, 4, 8, 1, 7, 3, 10, 2, 30, 1, 59, 1, 1, 1, 12, 1, 9, 1, 40, 1, 3, 1,
   55, 1, 1, 3, 5, 3, 1, 4, 7, 2, 11, 2, 29, 1, 58, 1, 2, 2, 1, 1, 3, 3, 1, 4, 7, 2, 11, 2, 28,
   2, 57, 2, 1, 1, 2, 4, 8, 1, 9, 1, 10, 2, 29, 1, 72, 1, 4, 1, 2, 3, 1, 1, 8, 1, 81, 1, 2, 7,
   12, 8, 98, 1, 2, 9, 11, 7, 73, 2, 27, 1, 1, 1, 1, 1, 55, 14, 1, 5, 1, 2, 5, 11, 1, 36, 9, 1,
   102, 4, 1, 6, 1, 2, 2, 2, 25, 2, 4, 3, 16, 4, 13, 1, 2, 2, 6, 1, 15, 1, 703, 3, 946, 4, 28,
   3, 29, 2, 30, 2, 64, 2, 1, 7, 8, 1, 2, 11, 9, 1, 45, 3, 1, 1, 117, 2, 34, 1, 118, 3, 4, 2, 9,
   1, 6, 3, 219, 2, 2, 1, 58, 1, 1, 7, 1, 1, 1, 1, 2, 8, 6, 10, 2, 1, 48, 46, 2, 12, 20, 4, 48,
   10, 4, 3, 38, 9, 12, 2, 32, 4, 2, 6, 56, 1, 1, 2, 3, 1, 1, 5, 56, 8, 2, 2, 152, 3, 1, 13, 1,
   7, 4, 1, 6, 1, 3, 2, 198, 64, 524, 1, 195, 33, 3070, 3, 141, 1, 96, 32, 554, 6, 105, 2,
   30164, 4, 1, 10, 32, 2, 80, 2, 272, 1, 3, 1, 4, 1, 25, 2, 5, 1, 151, 2, 26, 18, 13, 1, 38, 8,
   25, 11, 1, 1, 44, 3, 48, 1, 2, 4, 2, 2, 2, 1, 36, 1, 67, 6, 2, 2, 2, 2, 12, 1, 8, 1, 47, 1,
   51, 1, 1, 3, 2, 2, 5, 2, 1, 1, 42, 2, 8, 1, 238, 1, 2, 1, 4, 1, 20272, 1, 737, 16, 16, 16,
   366, 2, 605, 1, 226, 1, 149, 5, 1670, 3, 1, 2, 5, 4, 40, 3, 4, 1, 165, 2, 573, 4, 65, 5, 317,
   2, 77, 6, 70, 11, 49, 4, 123, 1, 54, 15, 41, 1, 2, 2, 10, 3, 49, 4, 2, 2, 7, 1, 61, 3, 36, 5,
   1, 8, 62, 1, 12, 2, 52, 9, 1, 1, 8, 4, 2, 1, 95, 3, 2, 4, 6, 1, 2, 1, 157, 1, 3, 8, 21, 2,
   57, 2, 1, 1, 1, 1, 12, 1, 9, 1, 14, 7, 3, 5, 67, 1, 2, 6, 1, 1, 2, 1, 1, 3, 4, 3, 1, 1, 14,
   2, 85, 8, 2, 3, 1, 1, 23, 1, 81, 1, 2, 6, 1, 1, 2, 1, 1, 2, 1, 2, 235, 1, 2, 4, 6, 2, 1, 2,
   27, 2, 85, 8, 2, 1, 1, 2, 106, 1, 1, 1, 2, 8, 101, 1, 1, 1, 2, 4, 1, 5, 259, 9, 1, 2, 245, 1,
   10, 4, 4, 1, 144, 4, 2, 2, 4, 1, 32, 10, 40, 6, 2, 4, 8, 1, 9, 6, 2, 3, 46, 13, 1, 2, 198, 1,
   1, 3, 1, 1, 201, 7, 1, 6, 1, 1, 82, 22, 2, 7, 1, 2, 1, 2, 122, 6, 3, 1, 1, 2, 1, 7, 1, 1, 72,
   2, 3, 1, 1, 1, 347, 2, 11, 2, 52, 5, 5, 3, 23, 1, 5349, 1, 6, 15, 11464, 12, 3, 3, 2496, 5,
   59, 7, 1048, 1, 63, 4, 81, 1, 11, 2, 19627, 2, 4705, 46, 2, 23, 542, 5, 3, 6, 8, 8, 2, 7, 30,
   4, 148, 3, 1979, 55, 4, 50, 8, 1, 14, 1, 22, 5, 1, 15, 1360, 7, 1, 17, 2, 7, 1, 2, 1, 5, 100,
   1, 160, 7, 375, 1, 61, 4, 508, 4, 254, 2, 243, 1, 2, 1, 7, 2, 5, 1, 474, 7, 109, 7, 792277,
   96, 128, 240
  ]

/-- A character that may start a word. -/
def isWordStart (c : Char) : Bool :=
  CharClass.isIdentifierStart c || CharClass.member startRuns c

/-- A character that may stand after the first one of a word. -/
def isWordRest (c : Char) : Bool :=
  CharClass.isIdentifierRest c || CharClass.member startRuns c || CharClass.member continueRuns c

/-- A text that starts and goes on as a word does. -/
def isWord (s : String) : Bool :=
  match s.toList with
  | [] => false
  | c :: rest => isWordStart c && rest.all isWordRest

/-- A character that is shown as itself. -/
def isVisible (c : Char) : Bool :=
  CharClass.isShown c || CharClass.member visibleRuns c

/-- A character that extends the one in front of it. -/
def isExtender (c : Char) : Bool :=
  CharClass.member extenderRuns c

theorem isWord_of_isIdentifier {s : String} (h : CharClass.isIdentifier s = true) :
    isWord s = true := by
  unfold CharClass.isIdentifier at h
  unfold isWord
  cases hs : s.toList with
  | nil => simp [hs] at h
  | cons c rest =>
    simp only [hs, Bool.and_eq_true, List.all_eq_true] at h ⊢
    exact ⟨by simp [isWordStart, h.1], fun d hd => by simp [isWordRest, h.2 d hd]⟩

end SampleTypes.Text.LaterClass
