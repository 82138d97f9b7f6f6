/-
# `ComponentHost.Resource.Handle` — names for parts that live in memory

A handle names one resource of one run.  Handles are numbered, and the number of a
handle is written into its locator, the text by which an entry source refers to it.
A locator is a scheme followed by an identifier in the form of a random UUID: the
number in 30 hexadecimal digits, and the two digits that tell the version and the
variant, in five groups with dashes between them.  The numbers of a run start wherever
the run is told to, so nothing outside it can know its locators.
-/
import ComponentHost.Text.Quoted

namespace ComponentHost

/-- A handle, by the number it was drawn with. -/
structure Handle where
  serial : Nat
  deriving DecidableEq, Repr

namespace Handle

/-- What every locator of a handle starts with. -/
def scheme : String := "blob:component-runner/"

/-- Puts the given text behind each group of characters that has the given size. -/
def grouped : List (Nat × List Char) → List Char → List Char
  | [], cs => cs
  | (n, mark) :: groups, cs => cs.take n ++ mark ++ grouped groups (cs.drop n)

/-- The sizes of all groups of digits but the last, and what comes between each and the next one:
a dash, and in front of two groups the version 4 and the variant 8. -/
def groups : List (Nat × List Char) :=
  [(8, ['-']), (4, ['-', '4']), (3, ['-', '8']), (3, ['-'])]

/-- The identifier of the handle: its number in 30 digits, with dashes, version and variant. -/
def identifier (h : Handle) : List Char :=
  grouped groups (Text.padZeros 30 (Text.hexDigits h.serial))

/-- The text that stands for the handle. -/
def locator (h : Handle) : String :=
  scheme ++ String.ofList h.identifier

/-- A locator that has the form of a handle's. -/
def isLocator (locator : String) : Bool :=
  scheme.toList.isPrefixOf locator.toList

def describe (h : Handle) : String :=
  "ResourceHandle(" ++ Text.quoted h.locator ++ ")"

end Handle

end ComponentHost
