import PacketDial.Core.Json
import PacketDial.Lib.Trim

/-!
# Texts of the app

The operations on texts of the Dart core library that the app uses, on lists of characters.
-/

namespace PacketDial.Ui

open PacketDial.Core PacketDial.Lib

/-- What `String.trim` takes off in Dart: white space and the byte order mark. -/
def isDartWhitespace (c : Char) : Bool := isWhitespace c || c == '\uFEFF'

/-- `String.trim` of Dart. -/
def dartTrim (s : String) : String := String.ofList (strip isDartWhitespace s.toList)

/-- `String.startsWith` of Dart. -/
def startsWith (s start : String) : Bool := start.toList.isPrefixOf s.toList

/-- `split(c).first` of Dart: what comes before the first `c`. -/
def before (c : Char) (s : String) : String := String.ofList (s.toList.takeWhile (· ≠ c))

/-- `substring(n)` of Dart. -/
def substringFrom (n : Nat) (s : String) : String := String.ofList (s.toList.drop n)

/-- `String.toLowerCase` of Dart, which lowers the characters one by one. -/
def lowerText (lower : Char → Char) (s : String) : String := String.ofList (s.toList.map lower)

/-- The same on texts of ASCII. -/
def lowered (s : String) : String := lowerText asciiLower s

end PacketDial.Ui
