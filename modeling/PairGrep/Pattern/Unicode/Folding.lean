import PairGrep.Pattern.Unicode.Table

/-!
# Simple case folding

The characters that case folding identifies, as orbits of two or more. Folding a set of characters
adds to it every orbit that it meets.
-/

namespace PairGrep.Pattern.Unicode

/-- The orbits, each as its size, the distance of its first character from the one of the orbit
before, and the distances between its characters. -/
def orbitRuns : List String :=
  ["iBiAhihAhihAhihAhihAhihAhihAhihAhihAhihAhjhAhfFoihAhihAhihAhihAhihAhihAhihAhjhAhMoihAhihAhih",
   "AhihAhihAhihAhihAhjbiH3AhirAhihAhihAhihAhihAhjhAhGCoihAhihAhihAhihAhihAhihAhihAhihAhihAhihAh",
   "ihAhihAhihAhihAhihAhihAhihAhiiAhihAhihAhihAhihAhihAhihAhihfNniAhZjihhiihiihiihiihiihiihiihii",
   "hiihiihiihiihiihiihiihiihiihiihiihiihiihiihiihikhiihiihijhiihiihiihiihiihiihiihijhiihiihiihi",
   "ihiihiihiihiihiihiihiihiihiihiihiihiihiihiihiihiihiihiihijhiihiihijDmihSmihhiihiiOmihhiiNmih",
   "NmihhijPiihKmihLmihhiiNmihPmihBjihTmihRmihhiiDlihBSJhihTmihVmihCkihWmihhiihiihiiamihhiiamijh",
   "iiamihhiiZmihZmihhiihiibmihhikhijYhjlhhjjhhjjhhijhiihiihiihiihiihiihiihijhiihiihiihiihiihiih",
   "iihiihjjhhijhikhiihiihiihiihiihiihiihiihiihiihiihiihiihiihiihiihiihiihiihikhiihiihiihiihiihi",
   "ihiihiihioLRqihhijIRqihfRqihfRqihhijFiihHiihhiihiihiihiihiifQqihcQqiheQqiqPKJhilLKJhijHLJhih",
   "IJJhihEKJhikEKJhihXPqihBKJhildPqisHPqilDKJhilKJJhi2VIJhihSIJhkHlUiAhFAniLhhiihikhilCkihCkihC",
   "kiiUjinGhiiFhihFhihFhiiAiiifhihfhiiAhjhAh-ihAhihAhjhAhAiihAhihAhkhAh5DhjiAhWhihAhiiAhihAhihA",
   "hjhAh2jhAhQhji_hihAhihAhjhAhvihAhihAhjhAhdKnihAhihAhiEhoiphiihiihiihiihiihiihiihiihiihiihiih",
   "iknilhijhimQiihQiihQiihQiihQiihQiihQiihQiihQiihQiihQiihQiihQiihQiihQiihQiihAhihAhjhAhOCmihAh",
   "jhAhNCmihAhihAhihAhihAhihAhihAhihAhihAhihAhjhAhECmihAhihAhjhAhCCmkhAhCCmhihAhihAhihAhihAhihA",
   "hihAhihAhjhAhcBmihAhihAhihAhihAhihAhiRhhjihEBmiihiihiihiihiihiihiihiihiihiihiihiihiihiihiihi",
   "qhiihiihiihiihiihiihiihiihiihiihiihiihiihiihiihiihiihiihiihiihiihiihiihiihiihiihiivihhiihiih",
   "iihiihiihiihijhiihiihiihiihiihiihiihiihiihiihiihiihiihiihiihiihiihiihiihiihiihiihiihiihiihii",
   "hiihiihiihiihiihiihiihiihiihiihiihiihiihiihiihiihiihiihiihiihiihijQhihQhihQhihQhihQhihQhihQh",
   "ihQhihQhihQhihQhihQhihQhihQhihQhihQhihQhihQhihQhihQhihQhihQhihQhihQhihQhihQhihQhihQhihQhihQh",
   "ihQhihQhihQhihQhihQhihQhihQhihQhiKaiADnihADnihADnihADnihADnihADnihADnihADnihADnihADnihADnihA",
   "DnihADnihADnihADnihADnihADnihADnihADnihADnihADnihADnihADnihADnihADnihADnihADnihADnihADnihADn",
   "ihADnihADnihADnihADnihADnihADnihADnihADniiADnimADnijAeiihAeiihAeiihAeiihAeiihAeiihAeiihAeiih",
   "AeiihAeiihAeiihAeiihAeiihAeiihAeiihAeiihAeiihAeiihAeiihAeiihAeiihAeiihAeiihAeiihAeiihAeiihAe",
   "iihAeiihAeiihAeiihAeiihAeiihAeiihAeiihAeiihAeiihAeiihAeiihAeiihAeiihAeiihAeiihAeiijAeiihAeii",
   "hAeiiB1QeFhihQeFhihQeFhihQeFhihQeFhihQeFhihQeFhihQeFhihQeFhihQeFhihQeFhihQeFhihQeFhihQeFhihQ",
   "eFhihQeFhihQeFhihQeFhihQeFhihQeFhihQeFhihQeFhihQeFhihQeFhihQeFhihQeFhihQeFhihQeFhihQeFhihQeF",
   "hihQeFhihQeFhihQeFhihQeFhihQeFhihQeFhihQeFhihQeFhihQeFhihQeFhihQeFhihQeFhihQeFhihQeFhihQeFhi",
   "hQeFhihQeFhihQeFhihQeFhihQeFhihQeFhihQeFhihQeFhihQeFhihQeFhihQeFhihQeFhihQeFhihQeFhihQeFhihQ",
   "eFhihQeFhihQeFhihQeFhihQeFhihQeFhihQeFhihQeFhihQeFhihQeFhihQeFhihQeFhihQeFhihQeFhihQeFhihQeF",
   "hihQeFhihQeFhihQeFhihQeFhihoihoihoihoihoihojTEiCOChhihhiQnEQChikGXjixYRChiSjhiihiihiihiihiih",
   "iihiihiihiihiihiihiihiihiihiihiihiihiihiihiihiihiihiihiihiihiihiihiihiihiihiihiihiihiihiihii",
   "hiihiihiihiihiihiihiihiihiihiihiihjihahiihiihiihiihiihiihiihiihiihiihiihiihiihiihiihiihiihii",
   "hiihiihiihiihiihiihiihiihishiihiihiihiihiihiihiihiihiihiihiihiihiihiihiihiihiihiihiihiihiihi",
   "ihiihiihiihiihiihiihiihiihiihiihiihiihiihiihiihiihiihiihiihiihiihiihiihiihiihiioihoihoihoiho",
   "ihoihoihoipoihoihoihoihoihoiroihoihoihoihoihoihoihoipoihoihoihoihoihoihoihoipoihoihoihoihoih",
   "oisoiioiioiioipoihoihoihoihoihoihoihoipKiihKiihWiihWiihWiihWiihEjihEjihAkihAkihQjihQjihejihe",
   "jijoihoihoihoihoihoihoihoipoihoihoihoihoihoihoihoipoihoihoihoihoihoihoihoipoihoiipiwpitoihoi",
   "voihoikniupifp8iOhwihwihwihwihwihwihwihwihwihwihwihwihwihwihwihwi0hiT56ih6ih6ih6ih6ih6ih6ih6",
   "ih6ih6ih6ih6ih6ih6ih6ih6ih6ih6ih6ih6ih6ih6ih6ih6ih6ih6iRZhQhihQhihQhihQhihQhihQhihQhihQhihQh",
   "ihQhihQhihQhihQhihQhihQhihQhihQhihQhihQhihQhihQhihQhihQhihQhihQhihQhihQhihQhihQhihQhihQhihQh",
   "ihQhihQhihQhihQhihQhihQhihQhihQhihQhihQhihQhihQhihQhihQhihQhihQhiRhhinhiihiihinhijhirhiihiih",
   "iihiihiihiihiihiihiihiihiihiihiihiihiihiihiihiihiihiihiihiihiihiihiihiihiihiihiihiihiihiihii",
   "hiihiihiihiihiihiihiihiihiihiihiihiihiihiihiihiihiphiihilhiOK-hiihiihiihiihikhiihiihiihiihii",
   "hiihiihiihiihiihiihiihiihiihiihiihi0hiihiihiihiihiihiihiihiihiihiihiihiihiihiIkhiihiihiihiih",
   "iihiihikhiihiihiihiihiihiihiihiihiihiihiihiihiihiihiihiihiihiihiihiihiihiihiihiihiihiihiihii",
   "hiihiihirhiihijhiihiihiihiihilhilhiihiiQhiihiihiihiihiihiihiihiihiihiihirA9ihhiihiihiihiihii",
   "hiihiihilhiihijhikhimhiihiihi7hiMZ1AhihAhihAhihAhihAhihAhihAhihAhihAhihAhihAhihAhihAhihAhihA",
   "hihAhihAhihAhihAhihAhihAhihAhihAhihAhihAhihAhiGGhIhihIhihIhihIhihIhihIhihIhihIhihIhihIhihIhi",
   "hIhihIhihIhihIhihIhihIhihIhihIhihIhihIhihIhihIhihIhihIhihIhihIhihIhihIhihIhihIhihIhihIhihIhi",
   "hIhihIhihIhihIhihIhihIhiJkIhihIhihIhihIhihIhihIhihIhihIhihIhihIhihIhihIhihIhihIhihIhihIhihIh",
   "ihIhihIhihIhihIhihIhihIhihIhihIhihIhihIhihIhihIhihIhihIhihIhihIhihIhihIhihIhidkHhihHhihHhihH",
   "hihHhihHhihHhihHhihHhihHhihHhiiHhihHhihHhihHhihHhihHhihHhihHhihHhihHhihHhihHhihHhihHhihHhiiH",
   "hihHhihHhihHhihHhihHhihHhiiHhihHhiLXhAiihAiihAiihAiihAiihAiihAiihAiihAiihAiihAiihAiihAiihAii",
   "hAiihAiihAiihAiihAiihAiihAiihAiihAiihAiihAiihAiihAiihAiihAiihAiihAiihAiihAiihAiihAiihAiihAii",
   "hAiihAiihAiihAiihAiihAiihAiihAiihAiihAiihAiihAiihAiihAiiekAhihAhihAhihAhihAhihAhihAhihAhihAh",
   "ihAhihAhihAhihAhihAhihAhihAhihAhihAhihAhihAhihAhihAhibZiAhihAhihAhihAhihAhihAhihAhihAhihAhih",
   "AhihAhihAhihAhihAhihAhihAhihAhihAhihAhihAhihAhihAhihAhihAhihAhihAhihAhihAhihAhihAhihAhihAhiB",
   "M1AhihAhihAhihAhihAhihAhihAhihAhihAhihAhihAhihAhihAhihAhihAhihAhihAhihAhihAhihAhihAhihAhihAh",
   "ihAhihAhihAhihAhihAhihAhihAhihAhihAhiBV-ChihChihChihChihChihChihChihChihChihChihChihChihChih",
   "ChihChihChihChihChihChihChihChihChihChihChihChihChihChihChihChihChihChihChihChihCh"]

def takeOrbit (first : Nat) : Nat → List Nat → List Nat × List Nat
  | 0, rest => ([first], rest)
  | _, [] => ([first], [])
  | more + 1, d :: rest =>
    let (chars, rest) := takeOrbit (first + d) more rest
    (first :: chars, rest)

def readOrbits (before : Nat) : Nat → List Nat → List (List Nat)
  | fuel + 1, size :: d :: rest =>
    let (chars, rest) := takeOrbit (before + d) (size - 1) rest
    chars :: readOrbits (before + d) fuel rest
  | _, _ => []

def orbits : List (List Nat) :=
  let numbers := decodeNumbers orbitRuns
  readOrbits 0 numbers.length numbers

/-- The set with the characters that differ from one of it in case only. -/
def fold (s : CharSet) : CharSet :=
  (orbits.filter fun orbit => orbit.any s.containsCode).foldl
    (fun s orbit => orbit.foldl (fun s n => s.insert n n) s) s

def hasCase (c : Char) : Bool := orbits.any fun orbit => orbit.contains c.toNat

end PairGrep.Pattern.Unicode
