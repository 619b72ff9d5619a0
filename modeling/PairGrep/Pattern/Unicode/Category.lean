import PairGrep.Pattern.Unicode.Table

/-!
# General categories

The property `General_Category`: a class number for every code point, in runs, and the names under
which a category, or a group of them, is asked for.
-/

namespace PairGrep.Pattern.Unicode

/-- The names of categories and of groups, each with the class numbers that it covers. -/
def categoryNames : List (String × List Nat) :=
  [("cn", [0]),
   ("unassigned", [0]),
   ("lu", [1]),
   ("uppercaseletter", [1]),
   ("ll", [2]),
   ("lowercaseletter", [2]),
   ("lt", [3]),
   ("titlecaseletter", [3]),
   ("lm", [4]),
   ("modifierletter", [4]),
   ("lo", [5]),
   ("otherletter", [5]),
   ("mn", [6]),
   ("nonspacingmark", [6]),
   ("mc", [7]),
   ("spacingmark", [7]),
   ("enclosingmark", [8]),
   ("me", [8]),
   ("decimalnumber", [9]),
   ("digit", [9]),
   ("nd", [9]),
   ("letternumber", [10]),
   ("nl", [10]),
   ("no", [11]),
   ("othernumber", [11]),
   ("connectorpunctuation", [12]),
   ("pc", [12]),
   ("dashpunctuation", [13]),
   ("pd", [13]),
   ("openpunctuation", [14]),
   ("ps", [14]),
   ("closepunctuation", [15]),
   ("pe", [15]),
   ("initialpunctuation", [16]),
   ("pi", [16]),
   ("finalpunctuation", [17]),
   ("pf", [17]),
   ("otherpunctuation", [18]),
   ("po", [18]),
   ("mathsymbol", [19]),
   ("sm", [19]),
   ("currencysymbol", [20]),
   ("sc", [20]),
   ("modifiersymbol", [21]),
   ("sk", [21]),
   ("othersymbol", [22]),
   ("so", [22]),
   ("spaceseparator", [23]),
   ("zs", [23]),
   ("lineseparator", [24]),
   ("zl", [24]),
   ("paragraphseparator", [25]),
   ("zp", [25]),
   ("cc", [26]),
   ("cntrl", [26]),
   ("control", [26]),
   ("cf", [27]),
   ("format", [27]),
   ("co", [29]),
   ("privateuse", [29]),
   ("c", [26, 27, 0, 29]),
   ("other", [26, 27, 0, 29]),
   ("l", [1, 2, 3, 4, 5]),
   ("letter", [1, 2, 3, 4, 5]),
   ("casedletter", [1, 2, 3]),
   ("lc", [1, 2, 3]),
   ("combiningmark", [6, 7, 8]),
   ("m", [6, 7, 8]),
   ("mark", [6, 7, 8]),
   ("n", [9, 10, 11]),
   ("number", [9, 10, 11]),
   ("p", [12, 13, 14, 15, 16, 17, 18]),
   ("punct", [12, 13, 14, 15, 16, 17, 18]),
   ("punctuation", [12, 13, 14, 15, 16, 17, 18]),
   ("s", [19, 20, 21, 22]),
   ("symbol", [19, 20, 21, 22]),
   ("separator", [23, 24, 25]),
   ("z", [23, 24, 25])]

def categoryRuns : List String :=
  ["6Ah3hyj0hyjuhvhyhzhyhthyipqyizjyih6uhyhvh1hsh1hi6uhzhvhzh6Bh3hyh0k2hyh1h2hlhwhzh7h2h1h2hzhri",
   "1hihyi1hrhlhxhrjyhh3zhhni4zhiohhihhhihhhihhhihhhihhhihhhihhhihhhihhhihhhihhhihhhihhhihhhihhh",
   "ihhhihhhihhhihhhihhhihhhihhhihhhihhhihhhihhhihhhiihhihhhihhhihhhihhhihhhihhhihhhiihhihhhihhh",
   "ihhhihhhihhhihhhihhhihhhihhhihhhihhhihhhihhhihhhihhhihhhihhhihhhihhhihhhihhhihhhihhiihhhihhh",
   "ijhiihhhihhiihhjiihkihhiihhjijhiihhiihhhihhhihhiihhhiihhihhiihhjihhhihhiiilhhhijlkhhjhihhhjh",
   "ihhhjhihhhihhhihhhihhhihhhihhhihhhihhhiihhihhhihhhihhhihhhihhhihhhihhhihhhiihhjhihhhihhjihhh",
   "ihhhihhhihhhihhhihhhihhhihhhihhhihhhihhhihhhihhhihhhihhhihhhihhhihhhihhhihhhihhhihhhihhhihhh",
   "ihhhihhhihhhihhhihhhinhiihhiiihhihhkihhhihhhihhhihhhiFilhi7ky1kks1ukl1nkh1hkh1xmQjhhihhhihkh",
   "1hhhihgikhijyhhhgk1ihhyhhjghhhghhiihhxghhpiDhhhiihjijhhihhhihhhihhhihhhihhhihhhihhhihhhihhhi",
   "hhhihhhilhhihzhhhihhiiihThiQhhhihhhihhhihhhihhhihhhihhhihhhihhhihhhihhhihhhihhhihhhihhhihhhi",
   "hhhih2hmloihhihhhihhhihhhihhhihhhihhhihhhihhhihhhihhhihhhihhhihhhihhhihhhihhhihhhihhhihhhihh",
   "hihhhihhhihhhihhhihhhihhhihhiihhhihhhihhhihhhihhhihhhiihhihhhihhhihhhihhhihhhihhhihhhihhhihh",
   "hihhhihhhihhhihhhihhhihhhihhhihhhihhhihhhihhhihhhihhhihhhihhhihhhihhhihhhihhhihhhihhhihhhihh",
   "hihhhihhhihhhihhhihhhihhhihhhihhhihhhihhhihhhihhhihhhihhhihhhihghhGhgikhymiJhyhthgi2i0hghmNh",
   "thmhyhmiyhmiyhmhgol7gklkyigr7mzjyi0hyi2imryh7hyjlAhkhlqm1pqyklimhlDjyhlhmn7h2hmmkimi2hmklipq",
   "lj2ilhyugh7hlhmhl-m7gilZimrlhgupqlBhmpki2hyjkhgimh0il2mkkhmpkhmjkhmlgiyvghl5mjgiyhghlrgll41h",
   "lmgh7iglmplJhkhm47hmAhnhlWhmhnhmhlhnjmonkmhnilhmnlqmiyipqyhkhlvmhnighlogiligil2ghlnghlhgjlkg",
   "imhlhnjmkginiginimhlhgonhgklighljmigipqli0irm2h0hlhyhmhgiminhghlmgkligil2ghlnghlighlighligim",
   "hghnjmigkmigimjgjmhgnlkghlhgnpqmiljmhyhgqminhghlpghljghl2ghlnghlighllgimhlhnjmlghminhghnimhg",
   "ilhgvlimigipqyh0hgnlhmmghmhnighlogiligil2ghlnghlighllgimhlhnhmhnhmkginiginimhgnminhgklighljm",
   "igipq2hlhrmgqmhlhghlmgjljghlkgjlighlhghligjligjljgjlsgknimhnigjnjghnjmhgilhgmnhgupqrj2m0h2hg",
   "lmhnjmhloghljghl3ghlwgimhlhmjnkghmjghmkgnmighljgilhgilimigipqgnyhrn2hlhmhniyhloghljghl3ghlqg",
   "hllgimhlhnhmhnlghmhnighnimignnigmlighlimigipqghlinhgsminilpghljghlJhmilhnjmkghnjghnjmhlh2hgk",
   "ljnhrnljmigipqrp2hlmghmhnighlygjl4ghlpghlhgilngjmhgknjmjghmhghnogmpqginiyhgslQhmhlimngk0hlmk",
   "hmoyhpqyigFhlighlhghllghl4ghlhghlqmhlimplhgillghkhghmnghpqgilkgAhlh2jyv2hyh2jmi2mpqrq2hmh2hm",
   "h2hmhuhvhuhvhniloghlEhgkmunhmlyhmillmrghmEhgh2omh2mgh2iyl2kyigFhlLhnimknhmmnhminimilhpqymlmn",
   "imilkmjlhnjlinnljmkltmhniminmmhlhnhpqnjmh2ihGhghhhglhhgiiLhyhkhijlJqghlkgilnghlhghlkgilJhghl",
   "kgilBhghlkgilnghlhghlkgilvghlZhghlkgilDigimjypr0gjlw2qgmhWigiimgithlMz2hyhlx3hl6uhvhgjlLiyjq",
   "jlognlymjnhgplzminhyigplymigsltghljghmigslUhminhmnnomhnimryjkhyj0hlhmhgipqgmrqgmymthykmj7hmh",
   "pqgmlDhkhlVhgnllmilChmhlhgllGigql_ghmjnkminjgknimhnmmjgk2hgjyipql-gillgrlMhgkl6gmpqrhgj2Chl3",
   "minimhgiyilVhnhmhnhmnghmhnhmhnimonmmqgimhpqgmpqgmynkhymgimuohmwgRhmknhlPhmhnhmlnhmhnlmhnilog",
   "hyipqyn2qmp2pyjminhl-nhmkniminhmjlipqlMhmhnhminjmhnhmjnigoyklEhnomonimigjylpqgjljpql-kmyiiph",
   "hihglhLhgihjyogomjyhmtnhmnlkmhlmmhlinhmilhgliMhkfhitkhiChkFhmAihhihhhihhhihhhihhhihhhihhhihh",
   "hihhhihhhihhhihhhihhhihhhihhhihhhihhhihhhihhhihhhihhhihhhihhhihhhihhhihhhihhhihhhihhhihhhihh",
   "hihhhihhhihhhihhhihhhihhhihhhihhhihhhihhhihhhihhhihhhihhhihhhihhhihhhihhhihhhihhhihhhihhhihh",
   "hihhhihhhihhhihhhihhhihhhihhhihhhihhhihhhihhhihhhihhhihhhihhhihhhihhhihhhihhhihhhihhhiphhihh",
   "hihhhihhhihhhihhhihhhihhhihhhihhhihhhihhhihhhihhhihhhihhhihhhihhhihhhihhhihhhihhhihhhihhhihh",
   "hihhhihhhihhhihhhihhhihhhihhhihhhihhhihhhihhhihhhihhhihhhihhhihhhihhhihhhihhhihhhihhhihhhihh",
   "hihhhiphoimgihmgiiohoiohoimgihmgiioghhhghhhghhhghhhiohoiugiiojoiojoiojoilghiihkjh1hih1jijghi",
   "ihkjh1jikgiiihkgh1jiohl1jgiijghiihkjh1igh3r7ltmyiwhxhuhwixhuhwhyo4h5h7l3hypwhxhyksiyjzhuhvhy",
   "rzhyhshyq3h7lgh7qrhkhgirmzjuhvhkhrqzjuhvhghktgj0Bhgvmtokmhojmsgv2ihh2khh2iihhjiihjih2hhh2izh",
   "hl2mhh2hhh2hhh2hhk2hihhkihlkih2iiihizlhhik2hzh2iih2hrwqDhhhihqkrh2igkzl2lzi2kzh2izh2izh2nzh2",
   "_zi2izh2hzh2_zMo2ouhvhuhvh20zi2nuhvh2Rizh2-z52Ihzm2Iig22rg1rch2Oir22Xlzh2pzh2Whzo2Pjzh2Ynuhv",
   "huhvhuhvhuhvhuhvhuhvhuhvhr-2Mhzluhvhz_uhvhuhvhuhvhuhvhuhvhzw2AozDkuhvhuhvhuhvhuhvhuhvhuhvhuh",
   "vhuhvhuhvhuhvhuhvhzfhuhvhuhvhzAhuhvhzCo2Qhz12izm2Hhgi2Ahgh2JjhQhiQhhhihhjiihhihhhihhhihhkihh",
   "hiihhimkihjihhhihhhihhhihhhihhhihhhihhhihhhihhhihhhihhhihhhihhhihhhihhhihhhihhhihhhihhhihhhi",
   "hhhihhhihhhihhhihhhihhhihhhihhhihhhihhhihhhihhhihhhihhhihhhihhhihhhihhhihhhihhhihhhihhhihhhi",
   "hhhihhhihhhihhhihhhihhhii2mhhihhhihmjhhihglykrhyiiGhghihglihgilYhgnkhyhgumhl3gplnghlnghlnghl",
   "nghlnghlnghlnghlnghmAhyiwhxhwhxhyjwhxhyhwhxhypthyithyhwhxhyiwhxhuhvhuhvhuhvhuhvhylkhyqtiykth",
   "yhuhyt2iyjuhvhuhvhuhvhuhvhthgCh26gh2Zigs2Wmg62w3hyj2hkhlhqhuhvhuhvhuhvhuhvhuhvh2iuhvhuhvhuhv",
   "huhvhthuhvi2hqpmknithkl2iqjkhlhyh2ighlWigimi1ikilhthlaiyhkjlhgllLhghleigh2irk2qlAh2Ghgp2hlw2",
   "_ghrq2-ro2hrv2Ahrq2Hhrv2AqlAOm2AilVQ0khlXDhgj2XhgplIhkmyilMokhyjlwpqlig0hhihhhihhhihhhihhhih",
   "hhihhhihhhihhhihhhihhhihhhihhhihhhihhhihhhihhhihhhihhhihhhihhhihhhihhhihlhmhojyhmqyhkhhhihhh",
   "ihhhihhhihhhihhhihhhihhhihhhihhhihhhihhhihhhihhhihkimilGiqqmiymgo13kp1ihhihhhihhhihhhihhhihh",
   "hihhhijhhihhhihhhihhhihhhihhhihhhihhhihhhihhhihhhihhhihhhihhhihhhihhhihhhihhhihhhihhhihhhihh",
   "hihhhihhhihhhihhhihhhihhhihhhihhhihhhihkhiohhihhhihhiihhhihhhihhhihhhihkh1ihhihhhihlhhhihhhi",
   "jhhihhhihhhihhhihhhihhhihhhihhhihhhihhhihhlihhlihhhihhhihhhihhhihhhihhhihhhihhkihhhihhiihgih",
   "hihghihghihhhihhhihhhihhhg1kjhhihlhkiihlnmhljmhlkmhl3niminh2kmhgjrm2i0h2hgmlUhykgonilShnwmig",
   "oyipqgmmylmyjlhyhlimhpql8moyil3mrnigryhl9gjmjnhlPhmhnimkniminjytghkhpqgkyillmhkhlppqllghlJhm",
   "mniminimigpljmhlomhnhgipqgiyklwkhlm2jlhnhmhnhlShmhlhmjlimillmilhmhlhg4likhyilrnhminiyilhkinh",
   "mhgqlmgilmgilmgplnghlnghiLh1hkkipkh1igkiQilDhnimhnimhniyhnhmhgipqgmlEdqgsl3gklRhgk8AAi9AImlO",
   "rgilKjgGhingsilgllhmhlqzhltghllghlhghlighlighlMj1xgwlLrvhuh2wlAigilWhgn2hgAhls0h2jmwynuhvhyh",
   "gmmwyhtisiuhvhuhvhuhvhuhvhuhvhuhvhuhvhuhvhyiuhvhyksjyjghykthuhvhuhvhuhvhyjzhthzjghyh0hyigkll",
   "ghlHkgi7hghyj0hyjuhvhyhzhyhthyipqyizjyih6uhyhvh1hsh1hi6uhzhvhzhuhvhyhuhvhyilqkhlNhkil_gjlmgi",
   "lmgilmgiljgj0izh1h2h0igh2hzk2igq7j2igilsghl6ghlzghlighlvgilugChlbjglyjgkrNhgj2pqVhrk2xri2jgh",
   "2tgj2hgPh2NhmhgCkl9gjlRhgvmhr7gklAhrkgpl0qhloqhgllGhmlgll-ghyhlEhgkloyhqlgKhhIhiIhlOigipqgmh",
   "EhgkiEhgklIhgolUhgryhhrghhvghhnghhighirghivghinghiigjlUhgslXpgpl2gqlog4kmghkKhghkpgFilmgilhg",
   "hlMhghligjlhgil3ghyhrol32irnl_gorpgQhlzghliglrll2rmgjyhl6glyhgAilYhgkrilirwgirOhlhmjghmiglmk",
   "lkghljghl9gimjgkmhrpgnypgnl9riyhl9rjgAhlo2hl8migkrlyngplWhgjynl2girolzglrolygnykgsrngQilJigX",
   "hhThgtiThgnrmlEhmkgopqgmpqlkkhlhh2gjmlthkhi2gozigQmr_ghlKhghmithgiligwljgXhmkl9rqlhgol2mrrky",
   "lg2lymkykgGhl1rng0l3gpnhmhnhlVhmvyngkr0pqmhlimilhgpmjnhlNhnjmknimiyi7hykmhgq7hgil5gnpqgmmjlE",
   "hmlnhmoghpqyklhnilhgolDhmhyilhgpminhlQhnjmpnilkykmkyhnhmhpqlhyhlhyjghr0grlyghl5njmjnimhnhmiy",
   "mmhlimhgehlnghlhghlkghlvghlqyhgmlPhmhnjmoglpqgmminighlogiligil2ghlnghlighllghmilhnimhnkginig",
   "injgilhgmnhglllnigimngjmlgrlqghlhgilhghlGhghlhnjmmghnhginhghnkghnimhnhmhlhmhlhyighyigomig9lV",
   "hnjmonimjnhmhlkylpqyighyhmhljg-lQhnjmmnhmhnkminhmiliyhlhgopqgGllPhnjmkginkminhmiy3lkmigChlQh",
   "njmonimhnhmiyjlhgrpqgmytgzlLhmhnhmhnimmnhmhlhyhgmpqgmp0g8l7gimjnimknhmlgkpqriyj2hlngZllMhnjm",
   "pnhmiyhgEjhAhiAhpqrpgslogilhgiloghlighl4nmghnigiminhmhlhnhlhnhmhyjgppqgGilogilHhnjmkgiminkmh",
   "lhyhlhnhg7lhmqlIhmmnhlhmkyomhgolhmmnimjlOhmtnhmiyjlhylgtlJignyqgWllBhyhgupqgmlpghlFhnhmnghmm",
   "nhmhlhylgqpqrzgjyil-gim2ghnhmnnhminhmigJilnghlighlGhmmgjmhghmighmnlhmhgopqgmlmghlighlAhnlghm",
   "ighnimhnhmhlhgnpqgWplzminiyignmilhnhltghlChnimlgjnimhnhmhytpqmhgVilhgvr12o0k2xgtyhla8gGjqPjg",
   "hylgrlEmgMSilBjyigtlQBh7wmhlmmvgqlbcjgllHygZVml-msnjmjpqgGWhlZxgnl_ghpqgkyilPighpqgml-gimlyh",
   "gqlQhmnyl2kkkyh2hgqpqghrnghl1gllzgQtkjlIhkiyjpqgGmhAhiAhr3ykgFjlLigkmhlhnXhgnmkktgAikiyhkhmh",
   "grnigulYflgolWGhgKhlpgHXokkghknghkighlDpgvlhg9ljgilhgulkgolMsgEIilLjglltgjlpgnlqgi2hmiyh7kgc",
   "aj2Qnpqgm2UtgMimOhgim3gp2Ujgch2Wngq2Hhgi2chnimj2jnm7omo2imn2-mk2dhg12Cimj2hgajr0gsr0gs2Xigpr",
   "5gHkh6i6h6inghiyh6i6hhghhigihhgihigihkghhoikghihghinghirh6i6highhkgihoghhnghi6highhkghhlghhh",
   "gjhnghi6h6i6h6i6h6i6h6i6h6i6h6i8gih5zhi5zhimh5zhi5zhimh5zhi5zhimh5zhi5zhimh5zhi5zhimhhihgipS",
   "h2AwmXh2kmSh2omh2umh2iylgvmlghmvgQChiqlhi0gmimgVmmnghmxgimnghmighmlglkehgBhmhgQjlNhgjmnkngip",
   "qgklh2hgAql-mhgxlMhmkpqgl0hgQul7khmkpqgWml-milhpqgkyhgAvlnghlkghlighlvghlFmgirpmngJhhChiChmn",
   "khgkpqgkyigR4rbh2hrj0hrkgMirNh2hrvgCmlkghl7ghlighlhgilhghlqghlkghlhghlhgmlhgklhghlhghlhghljg",
   "hlighlhgilhghlhghlhghlhghlhghlighlhgilkghlnghlkghlkghlhghlqghlxglljghllghlxgUhzigOo2Mhgk2Ejg",
   "s2vgi2vgh2vgh2Fhgqrt2BlgYh29gt2Mhgk2pgn2igu2mgak2bn1l2Y2gk2xgj2tgj2Xjgk2figm2sgk2hgv2sgk2Yhg",
   "o2qgm2Ihgo2-gi2sgk2igeh2Uqgs2ugi2tgj2qgl2Yhgn2vgi2rgm2pgn2Tkgh2cipqgGAhlAXJhgAhlaBkgmlemgilC",
   "UlgulRJngvlOzgCNilewgCPhlLakgllADkgRCX17hg-7AjgAkmQngQQfh9effhgi9effhgi"]

def category? (name : String) : Option CharSet :=
  (categoryNames.lookup name).map fun classes => classified categoryRuns classes

def assigned : CharSet := (classified categoryRuns [0]).complement

end PairGrep.Pattern.Unicode
