import ChoreRota.Calendar.Zone

/-!
# A table of time zones

Some zones, for the program and for examples. The first offset of a zone is its local mean time, and
yearly rules are spelled out up to 2099. Of the years before its first yearly rule a zone lists at
least the lasting changes.
-/

namespace ChoreRota

namespace Zone

/-- A single transition, on a date and so many seconds after its start in UTC. -/
def change (year month day second offset : Int) : Transition :=
  ⟨((Month.ofYear year month).start + (day - 1)) * 86400 + second, offset⟩

def inOrder : List Transition → Bool
  | earlier :: later :: rest => decide (earlier.start ≤ later.start) && inOrder (later :: rest)
  | _ => true

theorem pairwise_of_inOrder {transitions : List Transition}
    (horder : inOrder transitions = true) :
    transitions.Pairwise fun earlier later => earlier.start ≤ later.start := by
  induction transitions with
  | nil => exact .nil
  | cons first rest ih =>
    cases rest with
    | nil => exact List.pairwise_singleton _ _
    | cons second rest =>
      simp only [inOrder, Bool.and_eq_true, decide_eq_true_eq] at horder
      obtain ⟨hfirst, hrest⟩ := horder
      have hlater := ih hrest
      refine List.pairwise_cons.2 ⟨fun later hmem => ?_, hlater⟩
      rcases List.mem_cons.1 hmem with rfl | hmem
      · exact hfirst
      · exact Int.le_trans hfirst ((List.pairwise_cons.1 hlater).1 later hmem)

def ofTransitions (initial : Int) (transitions : List Transition)
    (horder : inOrder transitions = true)
    (hbounded : ∀ offset ∈ initial :: transitions.map Transition.offset, IsClockOffset offset) :
    Zone :=
  ⟨initial, transitions, pairwise_of_inOrder horder, hbounded⟩

def utc : Zone :=
  ofTransitions 0 [] (by decide) (by decide)

def fiveHoursBehind : Zone :=
  ofTransitions (-18000) [] (by decide) (by decide)

def newYork : Zone :=
  ofTransitions (-17762)
    ([change 1883 11 18 61200 (-18000)] ++
    yearlyTransitions 1967 1973
      [⟨4, .last, 25200, -14400⟩, ⟨10, .last, 21600, -18000⟩] ++
    [change 1974 1 6 25200 (-14400), change 1974 10 27 21600 (-18000),
      change 1975 2 23 25200 (-14400), change 1975 10 26 21600 (-18000)] ++
    yearlyTransitions 1976 1986
      [⟨4, .last, 25200, -14400⟩, ⟨10, .last, 21600, -18000⟩] ++
    yearlyTransitions 1987 2006
      [⟨4, .onOrAfter 1, 25200, -14400⟩, ⟨10, .last, 21600, -18000⟩] ++
    yearlyTransitions 2007 2099
      [⟨3, .onOrAfter 8, 25200, -14400⟩, ⟨11, .onOrAfter 1, 21600, -18000⟩])
    (by decide +kernel) (by decide +kernel)

def london : Zone :=
  ofTransitions (-75)
    ([change 1847 12 1 75 0, change 1968 2 18 7200 3600, change 1971 10 31 7200 0] ++
    yearlyTransitions 1972 1980
      [⟨3, .onOrAfter 16, 7200, 3600⟩, ⟨10, .onOrAfter 23, 7200, 0⟩] ++
    yearlyTransitions 1981 1989
      [⟨3, .last, 3600, 3600⟩, ⟨10, .onOrAfter 23, 3600, 0⟩] ++
    yearlyTransitions 1990 1995
      [⟨3, .last, 3600, 3600⟩, ⟨10, .onOrAfter 22, 3600, 0⟩] ++
    yearlyTransitions 1996 2099
      [⟨3, .last, 3600, 3600⟩, ⟨10, .last, 3600, 0⟩])
    (by decide +kernel) (by decide +kernel)

def troll : Zone :=
  ofTransitions 0
    (yearlyTransitions 2005 2099
      [⟨3, .last, 3600, 7200⟩, ⟨10, .last, 3600, 0⟩])
    (by decide +kernel) (by decide +kernel)

def stJohns : Zone :=
  ofTransitions (-12652)
    ([change 1935 3 30 12652 (-12600)] ++
    yearlyTransitions 2012 2099
      [⟨3, .onOrAfter 8, 19800, -9000⟩, ⟨11, .onOrAfter 1, 16200, -12600⟩])
    (by decide +kernel) (by decide +kernel)

/-- The rules name a Sunday on the local clock, which in UTC still shows the day before. -/
def lordHowe : Zone :=
  ofTransitions 38180
    ([change 1895 1 31 48220 36000, change 1981 2 28 50400 37800] ++
    yearlyTransitions 2008 2099
      [⟨4, .onOrAfter 1, 54000 - 86400, 37800⟩, ⟨10, .onOrAfter 1, 55800 - 86400, 39600⟩])
    (by decide +kernel) (by decide +kernel)

def chatham : Zone :=
  ofTransitions 44028
    ([change 1868 11 1 42372 44100, change 1945 12 31 42300 45900] ++
    yearlyTransitions 2008 2099
      [⟨4, .onOrAfter 1, 50400 - 86400, 45900⟩, ⟨9, .last, 50400 - 86400, 49500⟩])
    (by decide +kernel) (by decide +kernel)

def kolkata : Zone :=
  ofTransitions 21208
    [change 1854 6 27 65192 21200, change 1869 12 31 65200 19270, change 1905 12 31 67130 19800,
      change 1941 9 30 66600 23400, change 1942 5 14 63000 19800, change 1942 8 31 66600 23400,
      change 1945 10 14 63000 19800]
    (by decide +kernel) (by decide +kernel)

def kathmandu : Zone :=
  ofTransitions 20476
    [change 1919 12 31 65924 19800, change 1985 12 31 66600 20700]
    (by decide +kernel) (by decide +kernel)

def tokyo : Zone :=
  ofTransitions 33539
    [change 1887 12 31 20461 32400, change 1948 5 1 54000 36000, change 1948 9 11 54000 32400,
      change 1949 4 2 54000 36000, change 1949 9 10 54000 32400, change 1950 5 6 54000 36000,
      change 1950 9 9 54000 32400, change 1951 5 5 54000 36000, change 1951 9 8 54000 32400]
    (by decide +kernel) (by decide +kernel)

def shanghai : Zone :=
  ofTransitions 29143
    [change 1900 12 31 57257 28800, change 1986 5 3 64800 32400, change 1986 9 13 61200 28800,
      change 1987 4 11 64800 32400, change 1987 9 12 61200 28800, change 1988 4 16 64800 32400,
      change 1988 9 10 61200 28800, change 1989 4 15 64800 32400, change 1989 9 16 61200 28800,
      change 1990 4 14 64800 32400, change 1990 9 15 61200 28800, change 1991 4 13 64800 32400,
      change 1991 9 14 61200 28800]
    (by decide +kernel) (by decide +kernel)

def kiritimati : Zone :=
  ofTransitions (-37760)
    [change 1901 1 1 37760 (-38400), change 1979 10 1 38400 (-36000), change 1994 12 31 36000 50400]
    (by decide +kernel) (by decide +kernel)

/-- The clocks of this zone skipped a whole day at the end of 2011. -/
def apia : Zone :=
  ofTransitions 45184
    [change 1892 7 4 41216 (-41216), change 1911 1 1 41216 (-41400), change 1950 1 1 41400 (-39600),
      change 2010 9 26 39600 (-36000), change 2011 4 2 50400 (-39600),
      change 2011 9 24 50400 (-36000), change 2011 12 30 36000 50400,
      change 2012 3 31 50400 46800, change 2012 9 29 50400 50400,
      change 2013 4 6 50400 46800, change 2013 9 28 50400 50400,
      change 2014 4 5 50400 46800, change 2014 9 27 50400 50400,
      change 2015 4 4 50400 46800, change 2015 9 26 50400 50400,
      change 2016 4 2 50400 46800, change 2016 9 24 50400 50400,
      change 2017 4 1 50400 46800, change 2017 9 23 50400 50400,
      change 2018 3 31 50400 46800, change 2018 9 29 50400 50400,
      change 2019 4 6 50400 46800, change 2019 9 28 50400 50400,
      change 2020 4 4 50400 46800, change 2020 9 26 50400 50400,
      change 2021 4 3 50400 46800]
    (by decide +kernel) (by decide +kernel)

/-- The clocks of this zone went forward at midnight. -/
def saoPaulo : Zone :=
  ofTransitions (-11188)
    [change 1914 1 1 11188 (-10800),
      change 2008 10 19 10800 (-7200), change 2009 2 15 7200 (-10800),
      change 2009 10 18 10800 (-7200), change 2010 2 21 7200 (-10800),
      change 2010 10 17 10800 (-7200), change 2011 2 20 7200 (-10800),
      change 2011 10 16 10800 (-7200), change 2012 2 26 7200 (-10800),
      change 2012 10 21 10800 (-7200), change 2013 2 17 7200 (-10800),
      change 2013 10 20 10800 (-7200), change 2014 2 16 7200 (-10800),
      change 2014 10 19 10800 (-7200), change 2015 2 22 7200 (-10800),
      change 2015 10 18 10800 (-7200), change 2016 2 21 7200 (-10800),
      change 2016 10 16 10800 (-7200), change 2017 2 19 7200 (-10800),
      change 2017 10 15 10800 (-7200), change 2018 2 18 7200 (-10800),
      change 2018 11 4 10800 (-7200), change 2019 2 17 7200 (-10800)]
    (by decide +kernel) (by decide +kernel)

def known : List (String × Zone) :=
  [("UTC", utc), ("Etc/UTC", utc), ("Etc/GMT+5", fiveHoursBehind),
    ("America/New_York", newYork), ("US/Eastern", newYork), ("Eastern Standard Time", newYork),
    ("Europe/London", london), ("Antarctica/Troll", troll), ("America/St_Johns", stJohns),
    ("Australia/Lord_Howe", lordHowe), ("Pacific/Chatham", chatham), ("Asia/Kolkata", kolkata),
    ("Asia/Kathmandu", kathmandu), ("Asia/Tokyo", tokyo), ("Asia/Shanghai", shanghai),
    ("China Standard Time", shanghai), ("Pacific/Kiritimati", kiritimati), ("Pacific/Apia", apia),
    ("America/Sao_Paulo", saoPaulo)]

end Zone

instance : ZoneTable where
  named? name := (Zone.known.find? fun entry => entry.1 == name).map (·.2)

end ChoreRota
