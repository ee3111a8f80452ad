import Stylesheet.Text.Composition
import Stylesheet.Text.Direction

/-!
# Joiners

Two characters without width join or part the letters around them. They may stand where that shows:
after a sign that drops the vowel of a syllable, and the parting one also between two letters of a
script whose letters are joined.

* `Text.joiner`, `Text.nonJoiner`.
* `Text.joinersShow`: whether each of them stands where it shows.
-/

namespace Stylesheet.Text

def joiner : Char := Char.ofNat 0x200d

def nonJoiner : Char := Char.ofNat 0x200c

/-- Letters that are joined to the letters on both sides. -/
def joinedBoth : Ranges := .ofText
  "620 626 628 62A-62E 633-63F 641-647 649-64A 66E-66F 678-687 69A-6BF 6C1-6C2 6CC 6CE 6D0-6D1
   6FA-6FC 6FF 712-714 71A-71D 71F-727 729 72B 72D-72E 74E-758 75C-76A 76D-770 772 775-777 77A-77F
   7CA-7EA 841-845 848 84A-853 855 860 862-865 868 886 889-88D 8A0-8A9 8AF-8B0 8B3-8B8 8BA-8C8
   1807 1820-1878 1887-18A8 18AA A840-A871"

/-- Letters that are joined to the letter before them only. -/
def joinedBefore : Ranges := .ofText
  "622-625 627 629 62F-632 648 671-673 675-677 688-699 6C0 6C3-6CB 6CD 6CF 6D2-6D3 6D5 6EE-6EF 710
   715-719 71E 728 72A 72C 72F 74D 759-75B 76B-76C 771 773-774 778-779 840 846-847 849 854 856-858
   867 869-86A 870-882 88E 8AA-8AC 8AE 8B1-8B2 8B9"

/-- The first character of a run that takes space of its own. -/
def spaced? (chars : List Char) : Option Char := chars.find? fun c => direction c != .mark

/-- Whether a joiner shows after and before the given characters. The ones before it come last
first. -/
def joinerShows (c : Char) (before after : List Char) : Bool :=
  before.head?.any (markClass · == 9) ||
    (c == nonJoiner && (spaced? before).any joinedBoth.contains &&
      (spaced? after).any fun d => joinedBoth.contains d || joinedBefore.contains d)

/-- Checks the joiners of the rest of a text. -/
def joinersShowAfter (before : List Char) : List Char → Bool
  | [] => true
  | c :: cs =>
    (!(c == joiner || c == nonJoiner) || joinerShows c before cs) &&
      joinersShowAfter (c :: before) cs

def joinersShow (chars : List Char) : Bool := joinersShowAfter [] chars

end Stylesheet.Text
