import PairGrep.Pattern.Unicode.Table

/-!
# Ages

The property `Age`: the version of the standard in which a code point was assigned. A version stands
for all characters assigned up to it.
-/

namespace PairGrep.Pattern.Unicode

def ageNames : List (String × Nat) :=
  [("1.1", 1),
   ("v11", 1),
   ("2.0", 2),
   ("v20", 2),
   ("2.1", 3),
   ("v21", 3),
   ("3.0", 4),
   ("v30", 4),
   ("3.1", 5),
   ("v31", 5),
   ("3.2", 6),
   ("v32", 6),
   ("4.0", 7),
   ("v40", 7),
   ("4.1", 8),
   ("v41", 8),
   ("5.0", 9),
   ("v50", 9),
   ("5.1", 10),
   ("v51", 10),
   ("5.2", 11),
   ("v52", 11),
   ("6.0", 12),
   ("v60", 12),
   ("6.1", 13),
   ("v61", 13),
   ("6.2", 14),
   ("v62", 14),
   ("6.3", 15),
   ("v63", 15),
   ("7.0", 16),
   ("v70", 16),
   ("8.0", 17),
   ("v80", 17),
   ("9.0", 18),
   ("v90", 18),
   ("10.0", 19),
   ("v100", 19),
   ("11.0", 20),
   ("v110", 20),
   ("12.0", 21),
   ("v120", 21),
   ("12.1", 22),
   ("v121", 22),
   ("13.0", 23),
   ("v130", 23),
   ("14.0", 24),
   ("v140", 24),
   ("15.0", 25),
   ("v150", 25),
   ("15.1", 26),
   ("v151", 26),
   ("16.0", 27),
   ("v160", 27)]

/-- The ages of all code points, in runs; class `0` is for unassigned ones. -/
def ageRuns : List String :=
  ["hWvkkh-komhnhkynjorpuhZiklnihPhkhhqklnxhGikpmhnoolnjhikhmtqkhiqigihhpjhhwhgkhnghhhghh0ghhMhq",
   "hhnkhmihhkhhhkhhhkhhhkhhylimhnlokkhhskhhCikhhskhhJhqhkimikkhVhmihimihimiphh8kihooihipmmwpkqw",
   "risiwoghhGhgihn0hhHh0hhhkhgiwithghixohithqphhpihojgoh7gk0hhlgrnkthwhqlohhhnpqlhhvh4hohhhshh6",
   "qlhzkjnjomshhumihIikihlkhhvkhh-nihqklnhkughk-njk7ginjo-qykRhmhgupbhgi0jrOhgirvghs8gishghzrgl",
   "4_gh4igl7h4othwhtrwmxi4hyo3q4r0hyvxht7whrhhjnhhVhsihyrhshhlrhsih5qislwhripiohpiwhhjghhogihig",
   "ih2ghhnghhhgjhkgihhnhhngihigihjohgohhgkhighhlgih1rhzi0hginhhhnhghhmgkhigih2ghhnghhighhighhig",
   "ihhghhlgkhigihjgjqhgnhkghhhgnhvqh0hgqhjghhnnhhhghhjghh2ghhnghhighhlgihqghhjghhjgihhgvhhnjgih",
   "qthnhgnxhzmghhjghhogihigih2ghhnghhighnhhkgihoqhgihigihjgn3hhigkhighhjqigihrnhsmgqhighhmgjhjg",
   "hhkgjhighhhghhigjhigjhjgjhoohhjgkhlgjhjghhkgiqhgmhhguohhsnoglwhhj0hhoghhjghh3ghhqwhhlgi4hqhh",
   "nghhjghhkgnhighqixhgi4hgihiqigihqgn1hqoyhwhhi0hhoghhjghh3ghhqghhlginihnghhjghhkgnhigm4hhhghh",
   "ipigihqghpi5hgszhwhhi3hhoghhjghh3shhwshziqhhmqhghhjghhkshyhgkyjhhynxhhiqigihqqmyjqngh3hkighk",
   "ygjk4ghkpghkhgikngjkhgkkmghkhghkogmwqgikjgshahgkh9gFhhighhhgh1hhi1hhhgh1hhh1mhk1hhn1hhjghhhg",
   "hhh1ihi1hht1hhjgihlghhhghhm5hghhqgihitigAhiIighiBhkhqigki7skimkhihghi1kjinkhihkjghkvghqhkhoi",
   "qjrksigFhkChqhklqhkiqhknqjkkqmk6qAirkqihGhghthglthgihHhmioihhohtjhairlhEirlhSirmknohkfhohkhg",
   "hkkgiknghkhghkkgikHhohkhghkkgik_ohkhghkkgiknghkhghkkgiknohknghk3ohk_ohkhghkkgiknohkHhohkzgis",
   "ioik8gjo6gmkVixhgixmgirhkWzrpk9gjkRiwognmt4hmn4hgp4hm3gpm0gsmtghmjghmigskdinhgikqgmnqgmkv4hk",
   "qgmkYi0hgnkKhqhglrGigqn9wighnsgknsgknhgjnKhginlgroKhrigko6gmoqrhgjoinAho8gioirfhghr9girrgmrq",
   "gmrugiwv3i4ugRhpMi4hgh7ipNh4i7hqLhtjqstmsUhgoskqYhgjqvgjqThyp7igl0Lhgi0jtogorDhtkzhwi1hglnMj",
   "oYipnq8wvzk4hyhshrhpihbkihqkhaiqmh2gihmgihGhgihmgihoghhhghhhghhhghh_gihVhghhvghhugihmghhzgih",
   "jghhpghhPhkhh3mhkmmlnioimhonmlqhghvkhnmhgih7gholsogjhrihjhkjmiokrjshuhwjxhzh4hgvhykimnohpkqh",
   "gvhZhkinhohmvohpiqhrjhQhkhphqkrhxigkhbikpmshSnmuhhkhhZjkhmhk-mUhniorpsrhsrwnykzhhFhki7jg2hrg",
   "1hLkm0nhhWkmqhQikomoh0nimiohkhhWikimsoimqnoorqhriniowphqqrjqkrqshrzshrhskr4whhkshhksih8shhDh",
   "shhhshhksjhhrhhnsihnmuh_sjh4shhushonpkthqhthsim8qkmwkAomAwnuompnqlpkqJhwjqlrlw6giwAhgh3hwCh0",
   "jws1hwozh05xk0v1hoPh4hoPh4hptqjrhqjpkqmrioLjrntigloNhghthglthgioWhtignohshgusho3gponghonghon",
   "ghonghonghonghonghonghqAho4qkoiqzrhtqwnyizl0l1h3j4rgChk6ghkZigskWmg6ks6khYhkjmjkhhhghhUimigi",
   "hmmiheimhglhIhqhzh0hghheighhwk4sj3lowq07igp6hmwh9nighhEhrsnhmvh8niohhShmvhsnkhPh2hhXjnkhDjni",
   "h_nhkWNm3qnAihGN0o2qorothxpz10l3t4jkNEhgjkymikwmhksmhkjmhkhgprQhqMpg0qAhsiqytoq8wmxhthrYigoo",
   "3pkqlpiqLjsixhsitiwssqthwjyh0hwixm0i1m4i1l3k7jgi4igh4hgh4l7jg14j3iwhtishqloMh3hgjrqgmpYhgoqF",
   "iyhgoqsgmr8xi0iqUigrqhr9gjrOighrrgkriw_ghqXhgpqugiqqgiqkr8wkrDig4rlt3gqsmgismgismgpsnghsnghw",
   "Qhxkwi1i3kgkxQirOhgirqgmiEdqgsr3gkrRhgkiAAihORmtimbhrjgioKjgGhhngshlglkhh5ghhlghhhghhighhigh",
   "hMjsw4hgwhNr4whAigihWhgn4hlAhhsmhnh4imwoqgmhkqjwnxih1minihqghhzghhkgkhjmhhhghhHkgihhghheimih",
   "eigjhmgihmgihmgihjgjhnghhngqkjjhhjnsghn6ghnzghnighnvginugChnbjglnjgknNhgjnpoLiwiyighqs3hgjwh",
   "gPhqOhgCkq9gjqRhgvw8gkl_whlkgpzjl7glwLhgln-ghnhoEhgkougKhlGhnilGhnQiginqgmyEhgkyEhgkwIhgowUh",
   "grwh4rgh4vgh4ngh4igh4rgh4vgh4ngh4igj7UhgswXpgpw2gqwog44mgh4Khgh4pgFinmginhghnMhghnigjnhginhr",
   "2ghrpwfhgowpgQhxzghxiglxlp6rigjphq6glqhgAitYhgkxitixwgixOhokghoiglooghojgho70igiojgkop0hgnop",
   "gnrAhwAhgAhwHhgkwsgprWhgjr9gir7glrowygnwkgswngQirJigXhxThgtxThgnxm0Ihgo0qgm7Ghgj79go7igQmr_g",
   "h3Khgh3jgi3igw7jgXh7h5j0Ihgo0Khg246gGh38g013gpsOigks-4mgpwhrCi4hgq0hgit5gntqgmtVhghtu0j3hgow",
   "HhgptJixkwh3itqwhxlghw0grwyghwLhyh5jgehxnghxhghxkghxvghxrgmwbhglwqgmxhwjghwogiwigiw2ghwnghwi",
   "ghwlgh0hwpgiwigiwjgixhgmwhglwngiwngjwlgr7qgh7hgi7hgh7Ghgh7qgh7hgi7hgh7kgh7qgh7igo7ig9yai3hyh",
   "ghyh0h1h3ig-wIigowqgGlwWhgiwyx0gChwFigrwqgmytgztYh1h4hgmtqgm70g8x60hgixvgkxw4ngZl0chgEjwTigs",
   "wh3ngi3hgi3ogh3igh3-gh3igi3sgp3qgGi1ogi1Ohgi1rg7zIigozUh1iz30hzlgt4wwZhgn5qgWl7Chgu7qgmypghy",
   "Nhghyugqy9gjyAhgiy2ghyugJiznghzighzMhgjzhghzighzpgozqgm0mgh0igh0Fhgh0igh0mgn0qgWp05gn5xgh5Jh",
   "gj587hgVi3hgv1Shgt1hpP7wKhxhgGjpDjwsghpkwhgrxEmgMSi4DjgtrPBh5h1p59gq7bcjglxHygZVm7ahgGWhsZxg",
   "nw_ghwqgkwi4Pigh4qgmw-giwmgqwGigqwqghwnghw1glwzgQt7ahgGm0bigFjtFi1mgk1htPh1pgntxgAiyhzh1i3hg",
   "r3iguyNfl0l1mgoyT33DvgKh3pgHXo4kgh4ngh4ighsizdo4kgv5hg91jgi5hgu1kgozMsgEIiwLjglwtgjwpgnwqgiw",
   "ogcaj7angm7UtgMi4Ohgi43gp4UjgchlWngqlHhgiqhlUlxr4ig1oGigaj50gs00gsnXigppy0ngHklVighlHighligi",
   "lhgiligilkghlsghlhghlknhlighlBighlkgiloghlnghl8ghlkghllghlhgjlnghlSqoigilCppigilShxM0gvxlghx",
   "vgQCh4_gm5mgVmynghyxgiynghyighylgl5ehgBh5hgQj1Nhgj1ugi1qgk1igAq4_gx1ahgl1hgQu5KhgWm7Lhgk7hgA",
   "v4ngh4kgh4igh4vghwFmgiwwgJhyLi1hgkyqgkyigR40EigMi1dhgCmtkght7ghtighthgithghtqghtkghthghthgmt",
   "hgkthghthghthghtjghtighthgithghthghthghthghthghtighthgitkghtnghtkghtkghthghtqghtxgltjghtlght",
   "xgUhtigOoqMhgkqEjgssvgisuwhghsvghsvw2gqrrwi3jr_0hshrhsrrhshrhsirhsjrhsjrlsorhsnrhsqti1h3jspr",
   "hshrisirhsqrksirhsqyy3hgYhs6rhsigtrChspyhgkrpgnsiguzmgaksBhwsxjsmwhsGiwhxis0wssFhwhslwkxlwss",
   "xwnxosfhwhshwhsWlwhskwixhsehwitkwnxls4wyyhwJhyhwWislthswthsjthshthshthshthsjthsmtiskthshtisk",
   "thsswixisrwQhsGiwqxhyizi1h3igk5h4jwtgjwkyjzi0h1h3igjsUj5jgk5lwVi0k5hgm1sgk4hgvwsgkwYhgowqgmw",
   "Ihgow-gi3i7qgk7igehzs3h1jxpymzhyozoyhziys1hyszh0jyvzt0l1h3h0k3i4h0h1h0kxlytzm0r3i1m3j1i0q1mx",
   "h0i1o3h4h1jz3051Uigs0ugi1k3h5j1j4igj1j3k5i7hgl7h1m3z4k5j3n4k5j7h5h3j4j7hgn5i3n4j5i7hgi7h4o5h",
   "7hgm4n5ign3Tkgh3Xh7Fh3qgEAhiilXWJh3n4igAhrVBk4k5hgmsemgixCUlguzRJngv6OzgCNilewgAPhii3Lakgl5A",
   "DkgOCXhiigeffhiigeffhiigeffhiigeffhiigeffhiigeffhiigeffhiigeffhiigeffhiigeffhiighlhg-lAjgAkn",
   "QngOQfhiCAAk"]

def age? (name : String) : Option CharSet :=
  (ageNames.lookup name).map fun n => classified ageRuns ((List.range n).map (· + 1))

end PairGrep.Pattern.Unicode
