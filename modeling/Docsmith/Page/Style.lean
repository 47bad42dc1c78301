/-
The style sheet that every page carries in itself, as a packed text.
-/
import Docsmith.Text.Packed

namespace Docsmith.Page

def styleAlphabet : Array Char :=
  " \nabcdefghijklmnopqrstuvwxyz0123456789#%&'()*+,-./:;=?@^\x7b\x7d—".toList.toArray

def styleTable : Text.Packed := ⟨16366, "
 9A+uy!xhf1#P(XiPzRcHxC7w|:6)wBK$8*vGUc~aU<Frv#jeOD$==XKxe=?Re6rgU<1?dMW[H=+r+@WP^AeKw>_.mMuQ;V0FEXe
 <Fa,fG*+Ec?|%%HZs8aWt29UG)5Znma$k<KlrHe;[]^=SIoAsg4Jz$r8i1GtOx9x)Z&n29ZpzFQnHC7qt?$&8CLx0GD=N?w1@G8
 84V_Q7Ljn,:XwHP7Bo!G|*Cz@U2Udpt*cd2WALvq(c:yf6;Pj&4jEXP*TN?e2Dzo6kQrCYbMKK#VJMsj!(c_Hja28r~93>Ys#O.
 :[E5+4=fLQbAu*q>XQJ<G*t7^Ra]>qq*vH^~Pg[c#tnN>V#UWSEdCZUEfXg,J|4TZs66SyD^!+_7&2ZHpgh;!6RxOXK5dBFA$ip
 wIWL<iHl<Y)jXowIGGR46+bu[s,ONb~H7?m[Ds|S3ssrqw$l4el%B,]g<t]w#CoMLNug#nJKK;@lP?$9?2dmocwao#[ek|a24)u
 3;no?#wzfCPiOoJIXRjFOy01gd2f5Ovfx3QRvRfjdZRH^3D7>fSrUQoGxUl8&$E_w=]oivxpp7@6c4Z]80d%iK#1<l3dL<Gv![6
 vbC[!KIXrbZ:PeF8@Mox5rCzq:fYhOY^acUnb$^P8zH>m6j=B_b7TUkE[U467Pb&oHwf7I8%ArsHxeZk!1jlz=$WS?2i8n3x[^k
 I)#m+ubC3Za;Y3F8gZpf7Ys&6uuxTuCT@s;vPc$Z?+*P_[n3qvv=<@WCR[)Rn@W$tLcvC:6na38zq(gl$qfJWv1u7~UN(S0M)A<
 OtHHH2jJ]BCm47E%g*KoAOatGyZZTLz1~XG2eh__<2td(<tpIXhzDjy@6U7hYTZS2G^z9NKX%)ebN?7Oe2bj$$6ukQwu(b~,cVO
 z+^6A0<Wp]w6hIT.Gv%:HtaMY~PoaM!1lw[:x1YZz!]wZ<@UGwY5rwRTUwt9JmO;iHpL8d?3=,?o?~5rtMvnhAy@r8d2Bk2Sk~8
 2qP?M!Ff_o2DHW,]xRnW_U,G>Y!j[_tI.0]HAsvyr|<;n(Qz$VGAW0KU5s3Ww(1&wT)R=8+N9w1t43)1k(GaW&FoH4^gu_#lJu$
 PC8Z[bEK>KcVM<RyDG2DB[vR@QkoVS$=CzUWLPToc37T>Cl7PiCu.]?$;+E&r;8,fcN[r5[=E1EYG70N$6B_z>=3e2QR2g&FNi#
 9OF~sLBk^p:g@oh*CytnX&JL,(,2^Bxw~]zJy62fRCtQ2Wf&,@F$em;%K~CTeGoaUnVh(CWRg,5yk<on4[7%z>lcOQqV9,Trg,y
 zEw!9f)9:0C%?Q*bR:aS;v1pp72W;F.=p.7f?~RK_@c]*nzV,9>wi[TxL3|p)yM=K*wBC2Z(YWila+Nift$naFKSs@(m2mI7N[w
 )%@O2c2^[|#rqI,^JUsh5u#l65W|cxe8$FDkS(IBL3C]nDw#vvdm^1HzyqXkdj]m?tFteG3r|x65!Z%OyU1[+%f6qfsvSPma#^5
 oQZ)0,rH_WOoysn~z$F[_4.llzfJR6wl,>~qJ=y)u2HnYvpH]SK$(;iB,a3F1p=7o]C4>vtR4b)O33Ql9=%Iqd,Ra6h2U7?yo+h
 Q8Txs6mSXg7|0W;j^IP;=|:kBFs^Mk5g.l,suYik88$hJ2W!syFVIm>:1SqbnVnksQ;rR^=DBBuz,U|x~.YJrx)06Ai;9QAtX2E
 >Z0HG=<(CZ)cyUAAN#1qD?kz@O<m4wD^z:y~(.#Fg57]N*r9(>xuUa^cnvDh7wxXJMgje+wI=]I$UYzpAHVehKOnM|Dcqu&vF#E
 ;DoA7R)5>qcg_v7$I?d2]IZh$W=hr4kI%?P1$kXkuVy,7y[ejV&!#NptmT2!1X)@](Qw3[mt@rD*~^h@#))s5jP4!|(SPnOc,A?
 UYHFbUy*&K_hn07qSU+$~+TX7TriYGFUZF&mDh|P63B..>PSH;~M<W~07C^NFsa]Z;C9!nN&8e.c0YiV!IyydN#Q]lfV2eu.cdK
 hJ;;5v^F$n@]@fH^)p^RJ3*Jk_]JJb4@i)2+JX_Ey#h%r&fA_x+gkYCxw;^[bJ9=V_)+&3J~=<=GqMGL&?&[xQJ8:5mcZSO.Olr
 byY5.[3v)Ag8r5,u1v2i>XTeZ3ZAqp%cZjH1.wB+VfQqTwPAEl@mnwS22RiW$gxOZfV?yPzUfJo]?&||CLHUb=IC%wNowS=V5N&
 9?kj7:&abqPH4^r?gyd7h8=Ynx.]ly,b)(i=2(xV|aK~L(e>h<v#&uf@nS~h76M+Dx$uV0<5nJ55v?mMtk&>TT+[g8=5.K@~N6!
 3C3fcbBDq[:YdG|6qH%qeTQgzpwmeA;cFs0UNdTwFW@wAmehz<m$|M*ElLvVGOtXP~JvV]T&OBFb?%v&:p15Dvoew]u<<VMcsq;
 j!0%$)v.h@J6X(1ri4@$=_<1FP&3Ke:pJpJI~YQ)A]KS#fvxXe3<1S,&PX%?u3=*w,mfRurKzPUfies3z6sqwL5:XZsl8&X8I4p
 cs6gw!B>?N>P7>KaDzv*!&$~Hx|9ZTsX?YyyIPmE,b!+5eZZC?sIh;t9Oq4g3<C|+bZjnXK$=;VoV8dd;HJwF9A_wxzJSs(]&d*
 Jpw(oT@$Z#<0:$kWA<sZ!B@2#O%w<U^,+%BhZ9lj>+P|7NKUHlC3njFntu]?~+P>W4MlE)@S0NHZ:uYM|94R14qYE4tOy11+*]o
 ssxz70H~>1$o.4o:2nO1I5u(]x1D1?Rt5ZrQr6X*|gl3_r,iIRac?:NJH@U]Sf$;Cr7f$rd)yh!|<6QMrLo%=1a:1=puofJe>0W
 :utKt:Y(SeyyON7j_?k_w2B#Faxd*?24ZFFQJ|lcPnK[PWY+UFMua2Fv(o0]%o(Sjr$A1NQhIskYUm8F5)x1ZqA<0!1V+?bs9*B
 %.3CSd(n9yV1)*RmJV4~:V5|CBG|^fv:g|_=4wh7hspqi>bK6zMFA,#joUnN$XgX#UGX>r<6@n0U!RDT;;?:q6XpvK"⟩

def style : String := String.ofList (Text.withCapitals (styleTable.unpack styleAlphabet))

end Docsmith.Page
